import DocIndex.Proofs.Index.Steady

/-!
# What computations keep

A computation `Keeps` a property of machines if no run of it breaks the property. Whatever is done,
the staged input stays within the memory (`stepwise_sized`). Questions that stage nothing also leave
the staged input as it is (`stepwise_undisturbed`), so behind them a machine answers as before
(`Undisturbed.alike`).
-/

namespace DocIndex

namespace Table

variable {s : Snapshot} {m m₀ : Machine Table}

/-- The staged input lies within the memory. -/
def Sized (m : Machine Table) : Prop :=
  m.state.staged ≤ m.memory.length

theorem Sized.emit (sized : Sized m) (r : Reply) : Sized (emit r m).2 := by
  cases r with
  | word value => exact sized
  | _ =>
    have front : (m.memory.take m.state.staged).length = m.state.staged :=
      List.length_take_of_le sized
    simp [Table.emit, Sized, front]

theorem Sized.answer (sized : Sized m) (e : Export) (args : List UInt64) :
    Sized (answer e args m).2 := by
  rw [Table.answer]
  cases m.state.snapshot.reply (input m) e args with
  | error f => exact sized
  | ok r => exact sized.emit r

theorem sized_stage (length : UInt64) (m : Machine Table) : Sized (stage length m) :=
  (List.length_replicate ..).ge

/-- A machine with the staged input of an earlier one, and over the same snapshot. -/
structure Undisturbed (m₀ m : Machine Table) : Prop where
  snapshot : m.state.snapshot = m₀.state.snapshot
  sized : Sized m
  same : SameInput m₀ m

theorem undisturbed_self (sized : Sized m) : Undisturbed m m :=
  ⟨rfl, sized, rfl, rfl⟩

theorem Undisturbed.alike (h : Undisturbed m₀ m) : Alike m₀.state.snapshot m₀ m :=
  ⟨rfl, h.snapshot, .inl h.same⟩

theorem Undisturbed.emit (h : Undisturbed m₀ m) (r : Reply) : Undisturbed m₀ (emit r m).2 := by
  refine ⟨by rw [state_emit, h.snapshot], h.sized.emit r, by rw [state_emit, h.same.staged], ?_⟩
  rw [← h.same.front]
  cases r with
  | word value => rfl
  | _ =>
    have front : (m.memory.take m.state.staged).length = m.state.staged :=
      List.length_take_of_le h.sized
    simp only [Table.emit]
    rw [List.take_left' front]

theorem Undisturbed.answer (h : Undisturbed m₀ m) (e : Export) (args : List UInt64) :
    Undisturbed m₀ (answer e args m).2 := by
  rw [Table.answer]
  cases m.state.snapshot.reply (input m) e args with
  | error f => exact h
  | ok r => exact h.emit r

end Table

namespace Index

open Table

variable {α β : Type} {I : Machine Table → Prop} {x : Index Table α} {f : α → Index Table β}
  {e : Export} {args : List UInt64}

/-- Whether a computation leaves machines behind that have the property, if it starts on such. -/
def Keeps (I : Machine Table → Prop) (x : Index Table α) : Prop :=
  ∀ m, I m → I (x m).2

theorem keeps_pure (a : α) : Keeps I (pure a) :=
  fun _ h => h

theorem keeps_ofExcept (r : Except Fault α) : Keeps I (ofExcept r) := by
  intro m h
  rwa [ofExcept_run]

theorem Keeps.bind (hx : Keeps I x) (hf : ∀ a, Keeps I (f a)) : Keeps I (x >>= f) := by
  intro m h
  have after := hx m h
  rw [run_bind]
  rcases run : x m with ⟨e | a, m'⟩
  · rwa [run] at after
  · rw [run] at after
    exact hf a m' after

/-! ## Questions -/

/-- Whether questions that depend on nothing but what is there keep the property. -/
def Answering (I : Machine Table → Prop) : Prop :=
  ∀ e args m, I m → I (answer e args m).2

theorem answering_sized : Answering Sized :=
  fun e args _ h => h.answer e args

theorem answering_undisturbed (m₀ : Machine Table) : Answering (Undisturbed m₀) :=
  fun e args _ h => h.answer e args

theorem Answering.call (answering : Answering I) (stateless : e.Stateless) :
    Keeps I (call e args) := by
  intro m h
  rw [call_eq_answer stateless]
  exact answering e args m h

theorem Answering.callSlice (answering : Answering I) {read : Slice → Memory → Except Fault α}
    (stateless : e.Stateless) : Keeps I (callSlice read e args) := by
  intro m h
  rw [callSlice_run stateless]
  exact answering e args m h

/-- What questions keep is kept by everything that is done, if it depends neither on the target in
reach nor on the texts that may be looked up. -/
theorem Answering.stepwise {texts : Export → String → Prop} (answering : Answering I)
    (retargeted : ∀ m target, I m → I (retarget target m))
    (staged : ∀ {room e : Export} {t : String}, room.MakesRoom → texts e t →
      Keeps I (stage room t)) :
    Stepwise texts fun _ (x _ : Index Table _) => Keeps I x where
  pure := keeps_pure
  bind := Keeps.bind
  ofExcept := keeps_ofExcept
  call yields := answering.call yields.1
  callSlice yields _ _ := answering.callSlice yields.1
  classify h m kept := by
    obtain ⟨target, run⟩ := classify_run h.index m
    rw [run]
    exact retargeted m target kept
  findDeclaration known := (staged (by decide) known).bind fun _ =>
    (answering.call (by decide)).bind fun _ => keeps_ofExcept _
  fileRoot known := (staged (by decide) known).bind fun _ =>
    (answering.call (by decide)).bind fun _ => keeps_ofExcept _
  runQuery known := (staged (by decide) known).bind fun _ =>
    (answering.callSlice (by decide)).bind fun _ => keeps_pure _

/-- Questions that stage nothing leave the staged input as it is. -/
theorem stepwise_undisturbed (m₀ : Machine Table) : Stepwise (fun _ _ => False)
    fun _ (x _ : Index Table _) => Keeps (Undisturbed m₀) x :=
  (answering_undisturbed m₀).stepwise
    (fun _ _ h => ⟨h.snapshot, h.sized, h.same.staged, h.same.front⟩) fun _ h => h.elim

/-! ## Staging -/

theorem length_overwrite {memory : Memory} {offset : Nat} {bytes : List UInt8}
    (fits : offset + bytes.length ≤ memory.length) :
    (memory.overwrite offset bytes).length = memory.length := by
  simp only [Memory.overwrite, List.length_append, List.length_take, List.length_drop]
  omega

theorem keeps_stage (makes : e.MakesRoom) (t : String) : Keeps Sized (stage e t) := by
  intro m _
  rw [stage_eq makes]
  dsimp only
  split_ifs with fits
  · rw [Sized, length_overwrite fits]
    exact sized_stage _ m
  · exact sized_stage _ m

/-- Whatever is done, the staged input lies within the memory behind it. -/
theorem stepwise_sized : Stepwise (fun _ _ => True) fun _ (x _ : Index Table _) => Keeps Sized x :=
  answering_sized.stepwise (fun _ _ h => h) fun makes _ => keeps_stage makes _

end Index

end DocIndex
