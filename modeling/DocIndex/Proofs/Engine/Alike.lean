import DocIndex.Proofs.Engine.Table

/-!
# Machines that answer alike

Two machines over one snapshot are `Alike` if they have the same staged input, or if both have
theirs in reach of a slice. Exports that do not read the staged input answer the same on them
(`Alike.answer_cases`), and what is read of their answers is the same (`Alike.read_answer`),
although the answers may stand at different places. Making room for a text leaves machines behind
that differ in the target only (`Alike.stage`), whatever was there before.
-/

namespace DocIndex

/-! ## Replies and their widths -/

/-- How many bytes an element of a reply takes. A word has no elements. -/
def Reply.width : Reply → Nat
  | .word _ => 0
  | .text _ => 1
  | .words _ => 4
  | .longWords _ => 8

theorem Reply.length_elements (r : Reply) : r.elements.1 * r.width = r.elements.2.length := by
  cases r <;> simp [elements, width, List.length_flatMap, List.map_const']

/-- The width of the replies of an export. -/
def Export.width : Export → Nat
  | .fqn | .declName | .docs | .signature | .param | .field | .errorText | .doctest | .source
  | .moduleName => 1
  | .namespaceMembers | .typeFunctionMembers | .fields | .params | .queryExec => 4
  | .errorSetEntries => 8
  | _ => 0

/-- An export whose answer depends on the staged input. -/
def Export.ReadsInput (e : Export) : Prop :=
  e ∈ [findDecl, fileRoot, queryExec]

instance (e : Export) : Decidable e.ReadsInput :=
  inferInstanceAs (Decidable (_ ∈ _))

/-- An export that answers from the snapshot and the arguments alone, with replies of the width. -/
def Export.Yields (e : Export) (width : Nat) : Prop :=
  e.Stateless ∧ ¬ e.ReadsInput ∧ e.width = width

instance (e : Export) (width : Nat) : Decidable (e.Yields width) :=
  inferInstanceAs (Decidable (_ ∧ _ ∧ _))

theorem Export.Yields.noRoom {e : Export} {width : Nat} (yields : e.Yields width) :
    ¬ e.MakesRoom := by
  intro makes
  exact yields.1 (List.mem_append_left [categorize, aliasee] makes)

variable {s : Snapshot} {e : Export} {args : List UInt64} {r : Reply}

theorem Snapshot.reply_congr (noInput : ¬ e.ReadsInput) (input input' : String) :
    s.reply input e args = s.reply input' e args := by
  rcases args with _ | ⟨a, _ | ⟨b, _ | ⟨c, l⟩⟩⟩ <;> cases e <;>
    first | rfl | exact absurd (by decide) noInput

/-- Whether every reply that is no fault has the width. -/
def HasWidth (width : Nat) (x : Except Fault Reply) : Prop :=
  ∀ r, x = .ok r → r.width = width

theorem hasWidth_ok : HasWidth r.width (.ok r) := by
  intro r' h
  rw [Except.ok.inj h]

theorem hasWidth_error (width : Nat) (f : Fault) : HasWidth width (.error f) :=
  nofun

theorem HasWidth.bind {α : Type} {x : Except Fault α} {f : α → Except Fault Reply} {width : Nat}
    (h : ∀ a, HasWidth width (f a)) : HasWidth width (x >>= f) := by
  cases x with
  | error f => exact hasWidth_error width f
  | ok a => exact h a

theorem hasWidth_errorText (input : String) (owner ref : UInt64) :
    HasWidth 1 (s.reply input .errorText [owner, ref]) := by
  refine .bind fun d => ?_
  dsimp only
  split
  · exact hasWidth_ok
  · exact hasWidth_error 1 _

theorem hasWidth_moduleRoot (input : String) (i : UInt64) :
    HasWidth 0 (s.reply input .moduleRoot [i]) := by
  cases hm : s.modules[i.toNat]? with
  | some m =>
    rw [Snapshot.reply_moduleRoot hm]
    exact hasWidth_ok
  | none =>
    obtain ⟨reason, failed⟩ := Snapshot.reply_moduleRoot_eq_error hm input
    rw [failed]
    exact hasWidth_error 0 _

/-- An export answers with slices of one width, or with words. -/
theorem hasWidth_reply (s : Snapshot) (input : String) (e : Export) (args : List UInt64) :
    HasWidth e.width (s.reply input e args) := by
  rcases args with _ | ⟨a, _ | ⟨b, _ | ⟨c, l⟩⟩⟩ <;> cases e <;>
    first
      | exact hasWidth_ok
      | exact hasWidth_error _ _
      | exact .bind fun _ => hasWidth_ok
      | exact .bind fun _ => .bind fun _ => hasWidth_ok
      | exact hasWidth_moduleRoot input a
      | exact hasWidth_errorText input a b

namespace Table

variable {m m' : Machine Table}

/-! ## Where replies stand -/

/-- What is read of a reply that was just put into a word does not depend on what stands in front of
it. -/
theorem bytes_emit (small : m.state.staged < 2 ^ 32) (slice : r.width ≠ 0) :
    (Slice.unpack (emit r m).1).bytes r.width (emit r m).2.memory =
      .ok (r.elements.2.take (r.elements.1 % 2 ^ 32 * r.width)) := by
  have offset : (m.memory.take m.state.staged).length < 2 ^ 32 :=
    (List.length_take_le _ _).trans_lt small
  have fits : r.elements.1 % 2 ^ 32 * r.width ≤ r.elements.2.length := by
    rw [← r.length_elements]
    exact Nat.mul_le_mul_right _ (Nat.mod_le _ _)
  cases r with
  | word value => exact absurd rfl slice
  | _ =>
    simp only [emit]
    rw [Slice.unpack_pack offset]
    exact Slice.bytes_behind fits

theorem state_emit (r : Reply) (m : Machine Table) : (emit r m).2.state = m.state := by
  cases r <;> rfl

/-! ## Machines that differ in the target -/

/-- Two machines over the snapshot that are the same but for the target in reach. -/
structure Retargeted (s : Snapshot) (m m' : Machine Table) : Prop where
  snapshot : m.state.snapshot = s
  exists_target : ∃ target, m' = retarget target m

theorem answer_retarget (e : Export) (args : List UInt64) (target : Option UInt64)
    (m : Machine Table) :
    answer e args (retarget target m) =
      ((answer e args m).1, retarget target (answer e args m).2) := by
  have reply_eq : (retarget target m).state.snapshot.reply (input (retarget target m)) e args =
      m.state.snapshot.reply (input m) e args := rfl
  rw [answer, answer, reply_eq]
  cases m.state.snapshot.reply (input m) e args with
  | error f => rfl
  | ok r => cases r <;> rfl

theorem state_answer (e : Export) (args : List UInt64) (m : Machine Table) :
    (answer e args m).2.state = m.state := by
  rw [answer]
  cases m.state.snapshot.reply (input m) e args with
  | error f => rfl
  | ok r => exact state_emit r m

theorem Retargeted.answer (h : Retargeted s m m') :
    (answer e args m).1 = (answer e args m').1 ∧
      Retargeted s (answer e args m).2 (answer e args m').2 := by
  obtain ⟨hs, target, rfl⟩ := h
  rw [answer_retarget]
  exact ⟨rfl, by rw [state_answer, hs], target, rfl⟩

/-! ## Machines that answer alike -/

/-- Whether two machines have the same staged input in front of their memories. -/
structure SameInput (m m' : Machine Table) : Prop where
  staged : m'.state.staged = m.state.staged
  front : m'.memory.take m'.state.staged = m.memory.take m.state.staged

theorem SameInput.input_eq (h : SameInput m m') : input m' = input m := by
  rw [input, input, h.front]

/-- A slice that is put behind the same staged input leaves the same memory behind. -/
theorem SameInput.emit_slice (h : SameInput m m') (slice : r.width ≠ 0) :
    (emit r m').1 = (emit r m).1 ∧ (emit r m').2.memory = (emit r m).2.memory := by
  cases r with
  | word value => exact absurd rfl slice
  | _ =>
    simp only [emit]
    rw [h.front]
    exact ⟨rfl, rfl⟩

theorem SameInput.emit (h : SameInput m m') (r : Reply) :
    SameInput (emit r m).2 (emit r m').2 := by
  by_cases word : r.width = 0
  · cases r with
    | word value => exact h
    | _ => cases word
  · refine ⟨?_, ?_⟩
    · rw [state_emit, state_emit, h.staged]
    · rw [(h.emit_slice word).2, state_emit, state_emit, h.staged]

/-- Two machines over the snapshot that have the same staged input, or have theirs in reach of a
slice. -/
structure Alike (s : Snapshot) (m m' : Machine Table) : Prop where
  left : m.state.snapshot = s
  right : m'.state.snapshot = s
  same : SameInput m m' ∨ m.state.staged < 2 ^ 32 ∧ m'.state.staged < 2 ^ 32

theorem Retargeted.alike (h : Retargeted s m m') : Alike s m m' := by
  obtain ⟨hs, target, rfl⟩ := h
  exact ⟨hs, hs, .inl ⟨rfl, rfl⟩⟩

theorem Alike.retarget (h : Alike s m m') (target target' : Option UInt64) :
    Alike s (retarget target m) (retarget target' m') := by
  obtain ⟨left, right, same | small⟩ := h
  · exact ⟨left, right, .inl ⟨same.staged, same.front⟩⟩
  · exact ⟨left, right, .inr small⟩

/-- What is staged by making room does not depend on the machine. -/
theorem Alike.stage (h : Alike s m m') (length : UInt64) :
    Retargeted s (stage length m) (stage length m') := by
  have same : m'.state.snapshot = m.state.snapshot := h.right.trans h.left.symm
  refine ⟨h.left, m'.state.target, ?_⟩
  simp only [Table.stage, Table.retarget, same]

theorem SameInput.answer (h : SameInput m m') (same : m'.state.snapshot = m.state.snapshot) :
    SameInput (answer e args m).2 (answer e args m').2 := by
  rw [Table.answer, Table.answer, same, h.input_eq]
  cases m.state.snapshot.reply (input m) e args with
  | error f => exact h
  | ok r => exact h.emit r

theorem Alike.answer (h : Alike s m m') : Alike s (answer e args m).2 (answer e args m').2 := by
  refine ⟨by rw [state_answer, h.left], by rw [state_answer, h.right], ?_⟩
  rw [state_answer, state_answer]
  exact h.same.imp_left fun same => same.answer (h.right.trans h.left.symm)

/-- What an export answers that does not read the staged input: a fault, or one reply on both
machines. -/
theorem Alike.answer_cases (h : Alike s m m') (noInput : ¬ e.ReadsInput) (args : List UInt64) :
    (∃ f, Table.answer e args m = (.error f, m) ∧ Table.answer e args m' = (.error f, m')) ∨
      ∃ r : Reply, r.width = e.width ∧
        Table.answer e args m = (.ok (emit r m).1, (emit r m).2) ∧
        Table.answer e args m' = (.ok (emit r m').1, (emit r m').2) := by
  have same : s.reply (input m) e args = s.reply (input m') e args :=
    Snapshot.reply_congr noInput _ _
  cases hr : s.reply (input m) e args with
  | error f =>
    exact .inl ⟨f, answer_eq_error h.left hr, answer_eq_error h.right (same.symm.trans hr)⟩
  | ok r =>
    exact .inr ⟨r, hasWidth_reply s _ e args r hr, answer_eq_ok h.left hr,
      answer_eq_ok h.right (same.symm.trans hr)⟩

theorem emit_word (word : r.width = 0) : (emit r m).1 = (emit r m').1 := by
  cases r with
  | word value => rfl
  | _ => cases word

theorem Alike.answer_word (h : Alike s m m') (yields : e.Yields 0) :
    (Table.answer e args m).1 = (Table.answer e args m').1 := by
  obtain ⟨f, run, run'⟩ | ⟨r, width, run, run'⟩ := h.answer_cases yields.2.1 args
  · rw [run, run']
  · rw [run, run', emit_word (width.trans yields.2.2)]

/-- What is read of a slice that comes back is the same on both machines. -/
theorem Alike.read_answer {α : Type} {read : Slice → Memory → Except Fault α}
    {width : Nat} (h : Alike s m m') (yields : e.Yields width) (slice : width ≠ 0)
    (reads : Slice.Reads read width) :
    (Table.answer e args m).1.bind (fun word =>
        read (.unpack word) (Table.answer e args m).2.memory) =
      (Table.answer e args m').1.bind fun word =>
        read (.unpack word) (Table.answer e args m').2.memory := by
  obtain ⟨f, run, run'⟩ | ⟨r, same, run, run'⟩ := h.answer_cases yields.2.1 args
  · rw [run, run']
    rfl
  · rw [← yields.2.2, ← same] at slice reads
    rw [run, run']
    dsimp only [Except.bind]
    obtain input | ⟨small, small'⟩ := h.same
    · obtain ⟨word, memory⟩ := input.emit_slice slice
      rw [word, memory]
    -- the slices differ in their offsets, but not in what stands there
    · refine reads ?_
      rw [bytes_emit small slice, bytes_emit small' slice]

end Table

end DocIndex
