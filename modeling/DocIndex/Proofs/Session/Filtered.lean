import Mathlib.Data.List.Basic
import DocIndex.Proofs.Session.Stepwise

/-!
# Listings of some categories

With every engine a listing of the wanted categories is the listing of all of them without the other
members, in the same order (`members_filter`). The listing of the main module is sorted, and sorting
keeps the order of equal names, so it does not matter whether members are left out before or after.
-/

namespace DocIndex

/-! ## Sorting -/

section Sorting

variable {α : Type} {le : α → α → Bool}

/-- Sorting puts the first element between those that have to stand in front and the others. -/
theorem exists_mergeSort_cons (trans : ∀ a b c, le a b → le b c → le a c)
    (total : ∀ a b, le a b || le b a) (a : α) (l : List α) :
    ∃ front back, l.mergeSort le = front ++ back ∧ (a :: l).mergeSort le = front ++ a :: back ∧
      front = (l.mergeSort le).filter (!le a ·) ∧ back = (l.mergeSort le).filter (le a ·) := by
  obtain ⟨front, back, inserted, rest, before⟩ := List.mergeSort_cons trans total a l
  have sorted := List.pairwise_mergeSort trans total (a :: l)
  rw [inserted] at sorted
  have behind : ∀ b ∈ back, le a b = true :=
    (List.pairwise_cons.1 (List.pairwise_append.1 sorted).2.1).1
  refine ⟨front, back, rest, inserted, ?_, ?_⟩
  · rw [rest, List.filter_append, List.filter_eq_self.2 before,
      List.filter_eq_nil_iff.2 fun b hb => by simp [behind b hb], List.append_nil]
  · rw [rest, List.filter_append, List.filter_eq_self.2 behind,
      List.filter_eq_nil_iff.2 fun b hb => by simpa using before b hb, List.nil_append]

/-- Elements can be left out before or after the rest is sorted. -/
theorem filter_mergeSort (trans : ∀ a b c, le a b → le b c → le a c)
    (total : ∀ a b, le a b || le b a) (p : α → Bool) (l : List α) :
    (l.mergeSort le).filter p = (l.filter p).mergeSort le := by
  induction l with
  | nil => simp
  | cons a l ih =>
    obtain ⟨front, back, rest, inserted, hfront, hback⟩ := exists_mergeSort_cons trans total a l
    by_cases keep : p a = true
    · obtain ⟨front', back', -, inserted', hfront', hback'⟩ :=
        exists_mergeSort_cons trans total a (l.filter p)
      rw [inserted, List.filter_append, List.filter_cons_of_pos keep, List.filter_cons_of_pos keep,
        inserted', hfront', hback', ← ih, hfront, hback, List.filter_comm p, List.filter_comm p]
    · rw [inserted, List.filter_append, List.filter_cons_of_neg keep,
        List.filter_cons_of_neg keep, ← ih, rest, List.filter_append]

end Sorting

/-- Members in the order of their names. -/
def Member.nameLe (a b : Member) : Bool :=
  a.displayName ≤ b.displayName

theorem Member.nameLe_trans (a b c : Member) (hab : nameLe a b) (hbc : nameLe b c) :
    nameLe a c := by
  simp only [nameLe, decide_eq_true_eq] at *
  exact String.le_trans hab hbc

theorem Member.nameLe_total (a b : Member) : nameLe a b || nameLe b a := by
  simp only [nameLe, Bool.or_eq_true, decide_eq_true_eq]
  exact String.le_total a.displayName b.displayName

/-! ## Listings -/

namespace Index

variable {σ : Type} [Engine σ] (c : Config) (filter : CategorySet)

/-- The members of the wanted categories. -/
def wanted (filter : CategorySet) (members : List Member) : List Member :=
  members.filter fun m => filter.admits m.category

theorem wanted_full (members : List Member) : wanted .full members = members :=
  List.filter_eq_self.2 fun m _ => CategorySet.admits_full m.category

theorem wanted_describe (member : Option Member) (others : List Member) :
    (member.filter fun m => filter.admits m.category).toList ++ wanted filter others =
      wanted filter
        ((member.filter fun m => CategorySet.full.admits m.category).toList ++ others) := by
  cases member with
  | none => rfl
  | some m =>
    by_cases keep : filter.admits m.category = true <;>
      simp [wanted, Option.filter, keep, CategorySet.admits_full]

theorem describeAll_filter (l : List Handle) : (describeAll c filter l : Index σ (List Member)) =
    wanted filter <$> describeAll c .full l := by
  induction l with
  | nil => rfl
  | cons child rest ih =>
    rw [describeAll, describeAll, map_bind]
    refine bind_congr fun member => ?_
    rw [ih, map_bind, bind_map_left]
    refine bind_congr fun others => ?_
    rw [map_pure, wanted_describe]

theorem listFound_filter (found : Option (Handle × Category)) :
    (listFound c filter found : Index σ (List Member)) =
      wanted filter <$> listFound c .full found := by
  cases found with
  | none => rfl
  | some scope =>
    unfold listFound
    dsimp only
    split_ifs
    · rw [map_bind]
      exact bind_congr fun l => describeAll_filter c filter l
    · rw [map_bind]
      exact bind_congr fun l => describeAll_filter c filter l
    · rfl

theorem listChildren_filter (h : Handle) : (listChildren c h filter : Index σ (List Member)) =
    wanted filter <$> listChildren c h .full := by
  rw [listChildren_eq, listChildren_eq, map_bind]
  exact bind_congr fun way => listFound_filter c filter way.concrete?

/-- Members are sorted in the order of their names. -/
theorem wanted_sorted (members : List Member) :
    ((wanted filter members).mergeSort fun a b => a.displayName ≤ b.displayName) =
      wanted filter (members.mergeSort fun a b => a.displayName ≤ b.displayName) :=
  (filter_mergeSort Member.nameLe_trans Member.nameLe_total _ members).symm

theorem listRoot_filter : (listRoot c filter : Index σ (List Member)) =
    wanted filter <$> listRoot c .full := by
  have listed (l : List Handle) : (do
        let members ← describeAll c filter l
        return members.mergeSort fun a b => a.displayName ≤ b.displayName : Index σ _) =
      wanted filter <$> (do
        let members ← describeAll c .full l
        return members.mergeSort fun a b => a.displayName ≤ b.displayName) := by
    rw [describeAll_filter, bind_map_left, map_bind]
    exact bind_congr fun members => by rw [map_pure, wanted_sorted]
  unfold listRoot
  rw [map_bind]
  refine bind_congr fun hits => ?_
  rw [map_bind]
  refine bind_congr fun found => ?_
  dsimp only
  split_ifs
  · rw [map_bind]
    refine bind_congr fun root => ?_
    cases root with
    | none =>
      rw [map_bind]
      exact bind_congr listed
    | some root =>
      rw [map_bind]
      exact bind_congr listed
  · rw [map_bind]
    exact bind_congr listed

end Index

namespace Session

open Index

variable {σ : Type} [Engine σ]

theorem members_filter (c : Config) (name : String) (filter : CategorySet) :
    (members c name filter : Index σ (List Member)) = wanted filter <$> members c name .full := by
  unfold members
  rw [map_bind]
  refine bind_congr fun found => ?_
  cases found with
  | none => rfl
  | some r =>
    dsimp only
    split_ifs
    · exact listRoot_filter c filter
    · exact listChildren_filter c filter r.handle

end Session

end DocIndex
