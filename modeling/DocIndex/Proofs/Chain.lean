import Mathlib.Data.Fintype.Card
import Mathlib.Data.Fintype.EquivFin
import Mathlib.Data.List.Perm.Subperm
import Mathlib.Logic.Relation

/-!
# Chains of a partial function

A partial function `next` leads from an element along a chain, which may end, run in a circle or go
on. Where it does not run in a circle (`Acc (Follows next)`) no element stands on it twice
(`nodup_chain`), so within a finite list of elements it ends before they are used up
(`length_chain_le`), and looking further finds nothing more (`chain_succ`). A chain that ends within
a limit is in turn one that does not run in a circle (`acc_of_length_chain_lt`). There is at most
one element at which a chain ends or starts to repeat itself (`Stops.unique`).
-/

namespace DocIndex

variable {α : Type} (next : α → Option α)

/-- Whether `b` stands right behind `a` on a chain. -/
def Follows (b a : α) : Prop :=
  next a = some b

/-- The first `most` elements of the chain that starts with `a`. -/
def chain : (most : Nat) → (a : α) → List α
  | 0, _ => []
  | most + 1, a =>
    a :: match next a with
      | none => []
      | some b => chain most b

variable {next}

theorem mem_chain {most : Nat} {a b : α} (h : b ∈ chain next most a) :
    Relation.ReflTransGen (Follows next) b a := by
  induction most generalizing a with
  | zero => simp [chain] at h
  | succ most ih =>
    rw [chain, List.mem_cons] at h
    rcases h with rfl | h
    · exact .refl
    · cases hn : next a with
      | none => simp [hn] at h
      | some c => exact (ih (by simpa [hn] using h)).tail hn

theorem not_transGen_self_of_acc {r : α → α → Prop} {a : α} (h : Acc r a) :
    ¬ Relation.TransGen r a a := by
  have h' := h.transGen
  clear h
  induction h' with
  | intro a _ ih => exact fun loop => ih a loop loop

/-- Where no element that a chain comes to leads back to itself, the chain ends. -/
theorem acc_of_forall_not_transGen [Finite α] {a : α}
    (once : ∀ b, Relation.ReflTransGen (Follows next) b a →
      ¬ Relation.TransGen (Follows next) b b) : Acc (Follows next) a := by
  let behind (b c : {b // Relation.ReflTransGen (Follows next) b a}) : Prop :=
    Relation.TransGen (Follows next) b.1 c.1
  have irrefl : Std.Irrefl behind := ⟨fun b => once b.1 b.2⟩
  have trans : IsTrans _ behind := ⟨fun _ _ _ hb hc => hb.trans hc⟩
  have wf : WellFounded behind := Finite.wellFounded_of_trans_of_irrefl behind
  suffices h : ∀ b : {b // Relation.ReflTransGen (Follows next) b a}, Acc (Follows next) b.1 from
    h ⟨a, .refl⟩
  intro b
  induction b using wf.induction with
  | _ b ih => exact ⟨b.1, fun c hc => ih ⟨c, .head hc b.2⟩ (.single hc)⟩

/-- Where no element leads back to itself, every chain through a finite type ends. -/
theorem wellFounded_follows [Finite α] (acyclic : ∀ a, ¬ Relation.TransGen (Follows next) a a) :
    WellFounded (Follows next) :=
  ⟨fun _ => acc_of_forall_not_transGen fun b _ => acyclic b⟩

theorem length_chain_le_most (next : α → Option α) (most : Nat) (a : α) :
    (chain next most a).length ≤ most := by
  induction most generalizing a with
  | zero => exact Nat.le_refl 0
  | succ most ih =>
    rw [chain, List.length_cons]
    cases next a with
    | none => exact Nat.le_add_left 1 most
    | some b => exact Nat.succ_le_succ (ih b)

theorem nodup_chain {a : α} (h : Acc (Follows next) a) (most : Nat) :
    (chain next most a).Nodup := by
  induction most generalizing a with
  | zero => exact List.nodup_nil
  | succ most ih =>
    rw [chain, List.nodup_cons]
    cases hn : next a with
    | none => simp
    | some b =>
      refine ⟨fun back => not_transGen_self_of_acc h ?_, ih (h.inv hn)⟩
      exact Relation.TransGen.tail' (mem_chain back) hn

theorem length_chain_le {a : α} (h : Acc (Follows next) a) {most : Nat} {l : List α}
    (within : ∀ b ∈ chain next most a, b ∈ l) : (chain next most a).length ≤ l.length :=
  ((nodup_chain h most).subperm within).length_le

theorem acc_of_length_chain_lt {most : Nat} {a : α} (ended : (chain next most a).length < most) :
    Acc (Follows next) a := by
  induction most generalizing a with
  | zero => simp at ended
  | succ most ih =>
    refine ⟨a, fun b (hn : next a = some b) => ih ?_⟩
    simpa [chain, hn] using ended

theorem chain_succ {most : Nat} {a : α} (ended : (chain next most a).length < most) :
    chain next (most + 1) a = chain next most a := by
  induction most generalizing a with
  | zero => simp at ended
  | succ most ih =>
    rw [chain, chain]
    cases hn : next a with
    | none => rfl
    | some b =>
      simp only [chain, hn, List.length_cons, Nat.add_lt_add_iff_right] at ended
      simp only [ih ended]

/-! ## Single elements -/

variable (next)

/-- The element `n` steps behind `a`. -/
def link : (n : Nat) → (a : α) → Option α
  | 0, a => some a
  | n + 1, a => (next a).bind (link n)

variable {next} {m n k : Nat} {a b c : α}

theorem link_succ (n : Nat) (a : α) : link next (n + 1) a = (link next n a).bind next := by
  induction n generalizing a with
  | zero => cases h : next a <;> simp [link, h]
  | succ n ih =>
    rw [link]
    cases h : next a with
    | none => simp [link, h]
    | some b =>
      have step := ih b
      rw [link] at step
      simpa only [link, h, Option.bind_some] using step

theorem exists_link_of_le (h : link next n a = some b) (le : k ≤ n) :
    ∃ c, link next k a = some c := by
  induction le generalizing b with
  | refl => exact ⟨b, h⟩
  | step _ ih =>
    rw [link_succ] at h
    obtain ⟨c, hc, -⟩ := Option.bind_eq_some_iff.1 h
    exact ih hc

theorem link_mono {next' : α → Option α} (sub : ∀ a b, next a = some b → next' a = some b)
    (h : link next n a = some b) : link next' n a = some b := by
  induction n generalizing a with
  | zero => exact h
  | succ n ih =>
    obtain ⟨c, hc, h⟩ := Option.bind_eq_some_iff.1 h
    rw [link, sub a c hc]
    exact ih h

/-- A chain that gets somewhere and ends there does not run in a circle. -/
theorem acc_of_link (h : link next n a = some b) (ended : next b = none) :
    Acc (Follows next) a := by
  induction n generalizing a with
  | zero =>
    obtain rfl : a = b := Option.some.inj h
    exact ⟨a, fun c (hc : next a = some c) => by rw [ended] at hc; cases hc⟩
  | succ n ih =>
    obtain ⟨c, hc, h⟩ := Option.bind_eq_some_iff.1 h
    refine ⟨a, fun d (hd : next a = some d) => ?_⟩
    rw [hc] at hd
    obtain rfl := Option.some.inj hd
    exact ih h

theorem mem_chain_iff : b ∈ chain next n a ↔ ∃ k < n, link next k a = some b := by
  induction n generalizing a with
  | zero => simp [chain]
  | succ n ih =>
    rw [chain, List.mem_cons]
    constructor
    · rintro (rfl | h)
      · exact ⟨0, Nat.succ_pos n, rfl⟩
      · cases hn : next a with
        | none => simp [hn] at h
        | some c =>
          obtain ⟨k, hk, hb⟩ := ih.1 (by simpa [hn] using h)
          exact ⟨k + 1, Nat.succ_lt_succ hk, by simpa [link, hn] using hb⟩
    · rintro ⟨_ | k, hk, hb⟩
      · exact .inl (Option.some.inj hb).symm
      · obtain ⟨c, hc, hb⟩ := Option.bind_eq_some_iff.1 hb
        right
        simpa [hc] using ih.2 ⟨k, Nat.lt_of_succ_lt_succ hk, hb⟩

theorem chain_snoc (h : link next n a = some b) : chain next (n + 1) a = chain next n a ++ [b] := by
  induction n generalizing a with
  | zero =>
    obtain rfl : a = b := Option.some.inj h
    cases hn : next a <;> simp [chain, hn]
  | succ n ih =>
    obtain ⟨c, hc, h⟩ := Option.bind_eq_some_iff.1 h
    have tail := ih h
    rw [chain, chain]
    simp only [hc, tail, List.cons_append]

theorem length_chain_of_link (h : link next n a = some b) : (chain next n a).length = n := by
  induction n generalizing a with
  | zero => rfl
  | succ n ih =>
    obtain ⟨c, hc, h⟩ := Option.bind_eq_some_iff.1 h
    rw [chain, hc]
    simpa using ih h

theorem chain_isPrefix (le : m ≤ n) (a : α) : chain next m a <+: chain next n a := by
  induction m generalizing a n with
  | zero => exact List.nil_prefix
  | succ m ih =>
    obtain ⟨n, rfl⟩ : ∃ k, n = k + 1 := ⟨n - 1, by omega⟩
    rw [chain, chain, List.prefix_cons_inj]
    cases next a with
    | none => exact List.prefix_rfl
    | some b => exact ih (Nat.le_of_succ_le_succ le) b

/-! ## Where a chain stops -/

/-- Whether the chain from `a` has nothing new behind the element `b` that is `n` steps behind `a`:
the elements in front of it are distinct, and it is the last one or one of these. -/
structure Stops (next : α → Option α) (n : Nat) (a b : α) : Prop where
  link : link next n a = some b
  nodup : (chain next n a).Nodup
  stops : next b = none ∨ b ∈ chain next n a

theorem stops_of_link (h : link next n a = some b) (ended : next b = none) : Stops next n a b :=
  ⟨h, nodup_chain (acc_of_link h ended) n, .inl ended⟩

theorem Stops.le (hm : Stops next m a b) (hn : Stops next n a c) : n ≤ m := by
  by_contra lt
  have lt : m + 1 ≤ n := Nat.lt_of_not_le lt
  rcases hm.stops with ended | back
  · obtain ⟨d, hd⟩ := exists_link_of_le hn.link lt
    rw [link_succ, hm.link, Option.bind_some, ended] at hd
    cases hd
  · -- With `b` itself, the elements up to `b` are not distinct, but those in front of `c` are.
    have nodup := (chain_isPrefix lt a).nodup hn.nodup
    rw [chain_snoc hm.link] at nodup
    exact List.disjoint_of_nodup_append nodup back (List.mem_singleton_self b)

/-- A chain stops at one place only. -/
theorem Stops.unique (hm : Stops next m a b) (hn : Stops next n a c) : m = n ∧ b = c := by
  obtain rfl : m = n := Nat.le_antisymm (hn.le hm) (hm.le hn)
  exact ⟨rfl, Option.some.inj (hm.link.symm.trans hn.link)⟩

/-- A chain that ends does not come back to where it ends. -/
theorem not_mem_chain_of_link (h : link next n a = some b) (ended : next b = none) :
    b ∉ chain next n a := by
  intro back
  obtain ⟨k, hk, hb⟩ := mem_chain_iff.1 back
  obtain ⟨c, hc⟩ := exists_link_of_le h hk
  rw [link_succ, hb, Option.bind_some, ended] at hc
  cases hc

end DocIndex
