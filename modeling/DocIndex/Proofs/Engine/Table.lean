import DocIndex.Engine.Table
import DocIndex.Proofs.Engine.Slice

/-!
# What a call leaves behind

A machine `Serves` a snapshot if it answers from it and its memory starts with the input that was
staged. No call but a staging one breaks this (`Serves.invoke`), and a staging one does not either,
as long as the text is short (`Serves.holding`).
-/

namespace DocIndex

/-- An export that answers from the snapshot, the arguments and the staged input alone. -/
def Export.Stateless (e : Export) : Prop :=
  e ∉ [setInput, queryBegin, categorize, aliasee]

/-- An export that makes room for a text. -/
def Export.MakesRoom (e : Export) : Prop :=
  e ∈ [setInput, queryBegin]

instance (e : Export) : Decidable e.Stateless :=
  inferInstanceAs (Decidable (_ ∉ _))

instance (e : Export) : Decidable e.MakesRoom :=
  inferInstanceAs (Decidable (_ ∈ _))

theorem Snapshot.mem_positions {n : Nat} {i : UInt32} : i ∈ positions n ↔ i.toNat < n := by
  rw [positions, List.mem_map]
  constructor
  · rintro ⟨k, hk, rfl⟩
    rw [UInt32.toNat_ofNat']
    exact Nat.lt_of_le_of_lt (Nat.mod_le k _) (List.mem_range.1 hk)
  · intro lt
    exact ⟨i.toNat, List.mem_range.2 lt, UInt32.ofNat_toNat⟩

theorem Snapshot.reply_moduleRoot {s : Snapshot} {i : UInt64} {m : ModuleEntry}
    (hm : s.modules[i.toNat]? = some m) (input : String) :
    s.reply input .moduleRoot [i] = .ok (.word m.root.toUInt64) := by
  delta reply
  dsimp only
  rw [hm]

theorem Snapshot.reply_moduleRoot_eq_error {s : Snapshot} {i : UInt64}
    (hm : s.modules[i.toNat]? = none) (input : String) :
    ∃ reason, s.reply input .moduleRoot [i] = .error (.trap .moduleRoot reason) := by
  delta reply
  dsimp only
  rw [hm]
  exact ⟨_, rfl⟩

namespace Table

/-- A machine that answers from the snapshot and has its staged input in reach of a slice. -/
structure Serves (s : Snapshot) (m : Machine Table) : Prop where
  snapshot : m.state.snapshot = s
  staged_le : m.state.staged ≤ m.memory.length
  staged_lt : m.state.staged < 2 ^ 32

variable {s : Snapshot} {m : Machine Table} {e : Export} {args : List UInt64} {t : String}

theorem serves_start (s : Snapshot) : Serves s (start s) :=
  ⟨rfl, Nat.zero_le _, Nat.two_pow_pos 32⟩

/-! ## Replies -/

theorem Serves.length_front (h : Serves s m) :
    (m.memory.take m.state.staged).length = m.state.staged := by
  rw [List.length_take, Nat.min_eq_left h.staged_le]

theorem Serves.emit (h : Serves s m) (r : Reply) : Serves s (emit r m).2 := by
  cases r with
  | word value => exact h
  | _ =>
    refine ⟨h.snapshot, ?_, h.staged_lt⟩
    simp [Table.emit, h.length_front]

/-! ## Calls -/

theorem answer_eq_error (hs : m.state.snapshot = s) {f : Fault}
    (hr : s.reply (input m) e args = .error f) : answer e args m = (.error f, m) := by
  rw [answer, hs, hr]

theorem answer_eq_ok (hs : m.state.snapshot = s) {r : Reply}
    (hr : s.reply (input m) e args = .ok r) :
    answer e args m = (.ok (emit r m).1, (emit r m).2) := by
  rw [answer, hs, hr]

theorem Serves.answer (h : Serves s m) : Serves s (answer e args m).2 := by
  cases hr : s.reply (input m) e args with
  | error f =>
    rw [answer_eq_error h.snapshot hr]
    exact h
  | ok r =>
    rw [answer_eq_ok h.snapshot hr]
    exact h.emit r

/-- The machine with another target in reach. -/
def retarget (target : Option UInt64) (m : Machine Table) : Machine Table :=
  { m with state := { m.state with target } }

theorem Serves.retarget (h : Serves s m) (target : Option UInt64) : Serves s (retarget target m) :=
  ⟨h.snapshot, h.staged_le, h.staged_lt⟩

theorem Serves.categorize (h : Serves s m) (word : UInt64) : Serves s (categorize word m).2 := by
  rw [Table.categorize]
  cases m.state.snapshot.declAt word with
  | error f => exact h
  | ok d => exact h.retarget _

theorem invoke_stateless (stateless : e.Stateless) (args : List UInt64) (m : Machine Table) :
    invoke e args m = answer e args m := by
  cases e <;> first | rfl | exact absurd stateless (by decide)

/-- Only a call that makes room for a text can change what is staged. -/
theorem Serves.invoke (h : Serves s m) (noRoom : ¬ e.MakesRoom) :
    Serves s (invoke e args m).2 := by
  by_cases stateless : e.Stateless
  · rw [invoke_stateless stateless]
    exact h.answer
  · obtain rfl | rfl : e = .categorize ∨ e = .aliasee := by
      revert noRoom stateless
      cases e <;> decide
    · rcases args with _ | ⟨word, _ | ⟨_, _⟩⟩
      · exact h.answer
      · exact h.categorize word
      · exact h.answer
    · cases args with
      | nil => exact h.retarget none
      | cons _ _ => exact h.answer

/-! ## Staging -/

/-- The machine with a text as its staged input and nothing behind it. -/
def holding (t : String) (m : Machine Table) : Machine Table :=
  ⟨{ m.state with staged := (Utf8.encode t).length }, Utf8.encode t⟩

theorem Serves.holding (h : Serves s m) (short : Utf8.Short t) : Serves s (holding t m) :=
  ⟨h.snapshot, le_refl _, short⟩

theorem input_holding (t : String) (m : Machine Table) : input (holding t m) = t := by
  show Utf8.decodeLossy ((Utf8.encode t).take (Utf8.encode t).length) = t
  rw [List.take_length, Utf8.decodeLossy_encode]

/-- The room that is made for a text is as long as the text. -/
theorem stage_encode (counted : Utf8.Counted t) (m : Machine Table) :
    stage (.ofNat (Utf8.encode t).length) m =
      { holding t m with memory := List.replicate (Utf8.encode t).length 0 } := by
  rw [stage, UInt64.toNat_ofNat', Nat.mod_eq_of_lt counted, holding]

theorem invoke_makesRoom (makes : e.MakesRoom) (length : UInt64) (m : Machine Table) :
    invoke e [length] m = (.ok 0, stage length m) := by
  simp only [Export.MakesRoom, List.mem_cons, List.not_mem_nil, or_false] at makes
  rcases makes with rfl | rfl <;> rfl

end Table

end DocIndex
