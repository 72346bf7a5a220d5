import DocIndex.Proofs.Index.Unwinding

/-!
# Steady computations

A computation is `Steady` over a snapshot if its runs on machines that answer alike have the same
result and leave such machines behind. Every function of the typed index is steady
(`stepwise_steady`): those that stage a text because nothing of the machine in front of it remains
(`steady_staged`), classifying because the target in reach is set before it is read.
-/

namespace DocIndex.Index

open Table

variable {α : Type}

/-- Whether a computation agrees on machines that answer alike and leaves such machines behind. -/
abbrev Steady (s : Snapshot) (x : Index Table α) : Prop :=
  Agrees (Alike s) (Alike s) x x

/-! ## Calls -/

variable {s : Snapshot} {e : Export} {args : List UInt64} {x : Index Table α}
  {read : Slice → Memory → Except Fault α}

theorem callSlice_run (stateless : e.Stateless) (m : Machine Table) :
    callSlice read e args m =
      ((answer e args m).1.bind fun word => read (.unpack word) (answer e args m).2.memory,
        (answer e args m).2) := by
  rw [run_callSlice, call_eq_answer stateless]
  rcases answer e args m with ⟨f | word, m'⟩ <;> rfl

theorem steady_call (yields : e.Yields 0) : Steady s (call e args) := by
  intro m m' h
  rw [call_eq_answer yields.1, call_eq_answer yields.1]
  exact ⟨h.answer_word yields, h.answer⟩

theorem steady_callSlice {width : Nat} (yields : e.Yields width) (slice : width ≠ 0)
    (reads : Slice.Reads read width) : Steady s (callSlice read e args) := by
  intro m m' h
  rw [callSlice_run yields.1, callSlice_run yields.1]
  exact ⟨h.read_answer yields slice reads, h.answer⟩

/-! ## Staged texts -/

theorem agrees_call_retargeted (stateless : e.Stateless) :
    Agrees (Retargeted s) (Retargeted s) (call e args) (call e args) := by
  intro m m' h
  rw [call_eq_answer stateless, call_eq_answer stateless]
  exact h.answer

theorem agrees_callSlice_retargeted (stateless : e.Stateless) :
    Agrees (Retargeted s) (Retargeted s) (callSlice read e args) (callSlice read e args) := by
  intro m m' h
  rw [callSlice_run stateless, callSlice_run stateless]
  obtain ⟨result, after⟩ := h.answer
  refine ⟨?_, after⟩
  obtain ⟨-, target, memory⟩ := after
  rw [result, memory]
  rfl

/-- Behind a staged text nothing is left of the machines but the target in reach. -/
theorem agrees_stage {room : Export} (makes : room.MakesRoom) (t : String) :
    Agrees (Alike s) (Retargeted s) (stage room t) (stage room t) := by
  intro m m' h
  obtain ⟨hs, target, same⟩ := h.stage (.ofNat (Utf8.encode t).length)
  rw [stage_eq makes, stage_eq makes, same]
  dsimp only [retarget]
  split_ifs <;> exact ⟨rfl, hs, target, rfl⟩

theorem steady_staged {room : Export} (makes : room.MakesRoom) (t : String)
    (hx : Agrees (Retargeted s) (Retargeted s) x x) : Steady s (do stage room t; x) := by
  refine (agrees_stage makes t).andThen (fun _ => ?_) fun _ _ h => h.alike
  exact hx.mono fun _ _ h => h.alike

theorem steady_findDeclaration (path : String) : Steady s (findDeclaration path) := by
  unfold findDeclaration
  apply steady_staged (by decide)
  exact (agrees_call_retargeted (by decide)).bind fun _ => agrees_ofExcept _

theorem steady_fileRoot (path : String) : Steady s (fileRoot path) := by
  unfold fileRoot
  apply steady_staged (by decide)
  exact (agrees_call_retargeted (by decide)).bind fun _ => agrees_ofExcept _

theorem steady_runQuery (text : String) (ignoreCase : Bool) :
    Steady s (runQuery text ignoreCase) := by
  unfold runQuery
  apply steady_staged (by decide)
  exact (agrees_callSlice_retargeted (by decide)).bind fun _ => agrees_pure _

/-! ## Aliases -/

theorem steady_classify (h : Handle) : Steady s (classify h) := by
  intro m m' alike
  obtain ⟨target, run⟩ := classify_run h.index m
  obtain ⟨target', run'⟩ := classify_run h.index m'
  rw [run, run', alike.left, alike.right]
  exact ⟨rfl, alike.retarget target target'⟩

/-- Every function of the index is steady, whatever it looks up. -/
theorem stepwise_steady (s : Snapshot) :
    Stepwise (fun _ _ => True) fun _ (x y : Index Table _) => Agrees (Alike s) (Alike s) x y where
  pure := agrees_pure
  bind := Agrees.bind
  ofExcept := agrees_ofExcept
  call := steady_call
  callSlice := steady_callSlice
  classify := steady_classify
  findDeclaration _ := steady_findDeclaration _
  fileRoot _ := steady_fileRoot _
  runQuery _ := steady_runQuery _ _

end DocIndex.Index
