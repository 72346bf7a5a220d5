import DocIndex.Proofs.Snapshot.Tidy
import DocIndex.Snapshot.Builder

/-!
# Snapshots that were built

What is pushed is entered among the members of its parent if the parent stands before it, and a
declaration starts without members, whatever is filled in (`Decl.Built.members_eq`). So after every
step the members of a declaration are those behind it that name it as their parent, in their order
(`Snapshot.Built.inStep`): a parent that comes later, or never, or is the declaration itself gets no
member. Where every parent comes first nothing is left out, and parents do not run in a circle
(`Snapshot.InStep.mem_iff_of_first`, `Snapshot.not_transGen_of_first`).
-/

namespace DocIndex

/-- A declaration that was started as one with a name or as an alias, and filled in step by step. -/
inductive Decl.Built : Decl → Prop
  | named (name : String) (category : Category) : Built (.named name category)
  | redirecting (name : String) (target : UInt32) : Built (.redirecting name target)
  | inScope {d : Decl} (built : Built d) (parent : UInt32) : Built (d.inScope parent)
  | withDocs {d : Decl} (built : Built d) (html : String) : Built (d.withDocs html)
  | withSignature {d : Decl} (built : Built d) (html : String) : Built (d.withSignature html)
  | withParam {d : Decl} (built : Built d) (html : String) : Built (d.withParam html)
  | withField {d : Decl} (built : Built d) (html : String) : Built (d.withField html)
  | withErrors {d : Decl} (built : Built d) (errors : List ErrorEntry) : Built (d.withErrors errors)
  | withExample {d : Decl} (built : Built d) (html : String) : Built (d.withExample html)
  | withSource {d : Decl} (built : Built d) (html : String) : Built (d.withSource html)
  | asPrivate {d : Decl} (built : Built d) : Built d.asPrivate

theorem Decl.Built.members_eq {d : Decl} (built : d.Built) : d.members = [] := by
  induction built with
  | named | redirecting => rfl
  | inScope _ _ ih | withDocs _ _ ih | withSignature _ _ ih | withParam _ _ ih | withField _ _ ih
  | withErrors _ _ ih | withExample _ _ ih | withSource _ _ ih | asPrivate _ ih => exact ih

namespace Snapshot

/-- A snapshot that was built from the empty one step by step. -/
inductive Built : Snapshot → Prop
  | empty : Built {}
  | push {s : Snapshot} {d : Decl} (built : Built s) (decl : d.Built) : Built (s.push d).2
  | addModule {s : Snapshot} (built : Built s) (name : String) (root : UInt32) :
    Built (s.addModule name root)
  | addFile {s : Snapshot} (built : Built s) (path : String) (root : UInt32) :
    Built (s.addFile path root)

variable {s : Snapshot} {d e : Decl} {i m p : UInt32}

/-! ## One more declaration -/

theorem nextIndex_toNat (size : s.decls.size < 2 ^ 32) : s.nextIndex.toNat = s.decls.size := by
  rw [nextIndex, UInt32.toNat_ofNat', Nat.mod_eq_of_lt size]

theorem declares_lt_nextIndex (size : s.decls.size < 2 ^ 32) (h : s.Declares i) :
    i < s.nextIndex := by
  rw [UInt32.lt_iff_toNat_lt, nextIndex_toNat size]
  exact h

theorem size_withDecl (s : Snapshot) (d : Decl) : (s.withDecl d).decls.size = s.decls.size + 1 := by
  rw [withDecl, Array.size_push]
  cases d.parent <;> simp

/-- The members that a declaration gets when another one is pushed. -/
def entered (s : Snapshot) (d : Decl) (i : UInt32) : List UInt32 :=
  if d.parent = some i then [s.nextIndex] else []

theorem mem_entered : m ∈ s.entered d i ↔ d.parent = some i ∧ m = s.nextIndex := by
  rw [entered]
  split_ifs with h <;> simp [h]

/-- What is pushed stands at the next position, and of the others only the members change. -/
theorem decl?_withDecl (size : s.decls.size < 2 ^ 32) (d : Decl) (i : UInt32) :
    (s.withDecl d).decl? i = if i = s.nextIndex then some d else
      (s.decl? i).map fun e => { e with members := e.members ++ s.entered d i } := by
  have here : i.toNat = s.decls.size ↔ i = s.nextIndex := by
    rw [← nextIndex_toNat size, UInt32.toNat_inj]
  rw [decl?, decl?, withDecl, entered]
  cases parent : d.parent with
  | none => simp [Array.getElem?_push, here]
  | some p =>
    simp only [Array.getElem?_push, Array.size_modify, here, Array.getElem?_modify,
      UInt32.toNat_inj, Option.some.injEq]
    by_cases own : p = i
    · simp [own, Decl.addMember]
    · simp [own]

theorem decl?_withDecl_nextIndex (size : s.decls.size < 2 ^ 32) (d : Decl) :
    (s.withDecl d).decl? s.nextIndex = some d := by
  rw [decl?_withDecl size, if_pos rfl]

theorem decl?_withDecl_of_decl? (size : s.decls.size < 2 ^ 32) (h : s.decl? i = some e)
    (d : Decl) : (s.withDecl d).decl? i = some { e with members := e.members ++ s.entered d i } := by
  have ne := UInt32.ne_of_lt (declares_lt_nextIndex size (declares_of_decl? h))
  rw [decl?_withDecl size, if_neg ne, h, Option.map_some]

theorem parent?_withDecl (size : s.decls.size < 2 ^ 32) (d : Decl) (i : UInt32) :
    (s.withDecl d).parent? i = if i = s.nextIndex then d.parent else s.parent? i := by
  rw [parent?, decl?_withDecl size, parent?]
  split_ifs
  · rfl
  · cases s.decl? i <;> rfl

/-! ## Members and parents -/

/-- The members of a declaration are those behind it that name it as their parent, in their
order. -/
structure InStep (s : Snapshot) : Prop where
  sorted : ∀ p d, s.decl? p = some d → d.members.Pairwise (· < ·)
  mem_iff : ∀ p d, s.decl? p = some d → ∀ m, m ∈ d.members ↔ p < m ∧ s.parent? m = some p

theorem inStep_empty : InStep {} where
  sorted := by
    intro p d h
    cases h
  mem_iff := by
    intro p d h
    cases h

/-- The declaration that is pushed has no members yet, and the position that its parent gets is
behind all others. -/
theorem InStep.withDecl (inStep : s.InStep) (size : s.decls.size < 2 ^ 32) (decl : d.Built) :
    (s.withDecl d).InStep where
  sorted := by
    intro p e he
    rw [decl?_withDecl size] at he
    split_ifs at he with new
    · cases he
      rw [decl.members_eq]
      exact .nil
    · obtain ⟨e, old, rfl⟩ := Option.map_eq_some_iff.1 he
      refine List.pairwise_append.2 ⟨inStep.sorted p e old, ?_, fun a ha b hb => ?_⟩
      · rw [entered]
        split_ifs <;> simp
      · have listed := ((inStep.mem_iff p e old a).1 ha).2
        rw [(mem_entered.1 hb).2]
        exact declares_lt_nextIndex size (declares_of_parent? listed)
  mem_iff := by
    intro p e he m
    rw [decl?_withDecl size] at he
    rw [parent?_withDecl size]
    split_ifs at he with new
    · cases he
      -- what is pushed is the last one
      have none_behind :
          ¬ (p < m ∧ (if m = s.nextIndex then d.parent else s.parent? m) = some p) := by
        rintro ⟨behind, child⟩
        split_ifs at child with last
        · exact UInt32.ne_of_lt behind (new.trans last.symm)
        · have before := declares_lt_nextIndex size (declares_of_parent? child)
          exact UInt32.lt_asymm behind (new ▸ before)
      simp [decl.members_eq, none_behind]
    · obtain ⟨e, old, rfl⟩ := Option.map_eq_some_iff.1 he
      have first := declares_lt_nextIndex size (declares_of_decl? old)
      rw [List.mem_append, inStep.mem_iff p e old, mem_entered]
      by_cases last : m = s.nextIndex
      · have fresh : s.parent? s.nextIndex ≠ some p := fun child =>
          UInt32.lt_irrefl _ (declares_lt_nextIndex size (declares_of_parent? child))
        simp [last, fresh, first]
      · simp [last]

theorem Built.inStep (built : s.Built) (size : s.decls.size ≤ 2 ^ 32) : s.InStep := by
  induction built with
  | empty => exact inStep_empty
  | push built decl ih =>
    rw [Snapshot.push, size_withDecl] at size
    exact (ih (by omega)).withDecl (by omega) decl
  | addModule built name root ih => exact ⟨(ih size).sorted, (ih size).mem_iff⟩
  | addFile built path root ih => exact ⟨(ih size).sorted, (ih size).mem_iff⟩

/-! ## Parents that come first -/

/-- Where every parent stands before its children parents do not run in a circle. -/
theorem not_transGen_of_first (first : ∀ m p, s.parent? m = some p → p < m) (i : UInt32) :
    ¬ Relation.TransGen (Follows s.parent?) i i := by
  have behind {a b : UInt32} (h : Relation.TransGen (Follows s.parent?) a b) : a < b := by
    induction h with
    | single child => exact first _ _ child
    | tail _ child ih => exact UInt32.lt_trans ih (first _ _ child)
  exact fun loop => UInt32.lt_irrefl _ (behind loop)

/-- Where every parent stands before its children it has them all as members. -/
theorem InStep.mem_iff_of_first (inStep : s.InStep)
    (first : ∀ m p, s.parent? m = some p → p < m) (m p : UInt32) :
    s.parent? m = some p ↔ ∃ d, s.decl? p = some d ∧ m ∈ d.members := by
  constructor
  · intro child
    have declared : s.Declares p :=
      Nat.lt_trans (first m p child) (declares_of_parent? child)
    obtain ⟨d, hd⟩ := exists_decl?_iff.2 declared
    exact ⟨d, hd, (inStep.mem_iff p d hd m).2 ⟨first m p child, child⟩⟩
  · rintro ⟨d, hd, listed⟩
    exact ((inStep.mem_iff p d hd m).1 listed).2

/-- After every step of building a snapshot, of no more declarations than there are positions, the
members of each declaration are those behind it that name it as their parent, in their order.
Pushing a declaration gives its position and changes nothing of those before it but the members of
its parent. Where every parent comes first there are no circles, and members and parents agree. -/
theorem built_spec (built : s.Built) (size : s.decls.size ≤ 2 ^ 32) :
    (∀ p d, s.decl? p = some d → d.members.Pairwise (· < ·) ∧
        (∀ m, m ∈ d.members ↔ p < m ∧ s.parent? m = some p) ∧ ∀ m ∈ d.members, s.Declares m) ∧
      (∀ (d : Decl) (i : UInt32) (t : Snapshot), d.Built → s.decls.size < 2 ^ 32 →
        s.push d = (i, t) →
          i.toNat = s.decls.size ∧ t.decls.size = s.decls.size + 1 ∧ t.decl? i = some d ∧
            (∀ j e, s.decl? j = some e → t.decl? j =
              some { e with members := e.members ++ if d.parent = some j then [i] else [] }) ∧
            t.modules = s.modules ∧ t.files = s.files) ∧
      ((∀ m p, s.parent? m = some p → p < m) →
        (∀ i, ¬ Relation.TransGen (Follows s.parent?) i i) ∧
          ∀ m p, s.parent? m = some p ↔ ∃ d, s.decl? p = some d ∧ m ∈ d.members) := by
  have inStep := built.inStep size
  refine ⟨fun p d hd => ⟨inStep.sorted p d hd, inStep.mem_iff p d hd, fun m hm => ?_⟩, ?_,
    fun first => ⟨not_transGen_of_first first, inStep.mem_iff_of_first first⟩⟩
  · exact declares_of_parent? ((inStep.mem_iff p d hd m).1 hm).2
  · rintro d i t - room pushed
    cases pushed
    exact ⟨nextIndex_toNat room, size_withDecl s d, decl?_withDecl_nextIndex room d,
      fun j e h => decl?_withDecl_of_decl? room h d, rfl, rfl⟩

/-- A snapshot that is built with every parent first. -/
def grown : Snapshot :=
  let s := (Snapshot.push {} (.named "root" .nameSpace)).2
  let s := (s.push ((Decl.named "mem" .nameSpace).inScope 0)).2
  let s := (s.push (((Decl.named "eql" .function).withParam "a").inScope 1)).2
  (s.push ((Decl.redirecting "equal" 2).inScope 0)).2.addModule "root" 0

theorem built_grown : grown.Built :=
  .addModule (.push (.push (.push (.push .empty (.named _ _)) (.inScope (.named _ _) 0))
    (.inScope (.withParam (.named _ _) "a") 1)) (.inScope (.redirecting _ _) 0)) _ _

theorem built_spec_grown : grown.Built ∧ grown.decls.size ≤ 2 ^ 32 ∧
    (∃ d, grown.decl? 0 = some d ∧ d.members = [1, 3] ∧
      ∀ m, m ∈ d.members ↔ 0 < m ∧ grown.parent? m = some 0) ∧
    (∃ i t, grown.push ((Decl.named "own" .container).inScope 4) = (i, t) ∧ i.toNat = 4 ∧
      t.decl? i = some ((Decl.named "own" .container).inScope 4)) ∧
    (∀ m p, grown.parent? m = some p → p < m) ∧
      ∀ i, ¬ Relation.TransGen (Follows grown.parent?) i i := by
  have size : grown.decls.size ≤ 2 ^ 32 := by decide +kernel
  have first : ∀ m p, grown.parent? m = some p → p < m := by
    have each : grown.Each fun m d => ∀ p ∈ d.parent, p < m := by decide +kernel
    intro m p child
    obtain ⟨d, hd, hp⟩ := Option.bind_eq_some_iff.1 child
    exact each m d hd p hp
  obtain ⟨members, pushed, trees⟩ := built_spec built_grown size
  obtain ⟨place, -, there, -⟩ := pushed _ _ _ (.inScope (.named "own" .container) 4)
    (by decide +kernel) rfl
  exact ⟨built_grown, size, ⟨_, rfl, by decide +kernel, (members 0 _ rfl).2.1⟩,
    ⟨_, _, rfl, place, there⟩, first, (trees first).1⟩

end Snapshot

end DocIndex
