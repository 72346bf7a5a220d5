import DocIndex.Proofs.Index.Listing
import DocIndex.Proofs.Index.Steady
import DocIndex.Proofs.Session.Stepwise

/-!
# Sessions without memory

A session answers a request as a fresh one does, whatever was asked before and however it ended
(`perform_after`). Each request is steady (`steady_perform`), so the snapshot is kept along a
history, and all that a history leaves behind is where answers stand and the target in reach. What
was staged last has to be in reach of a slice, whose offset is less than `2 ^ 32`.
-/

namespace DocIndex.Session

open Index Table

variable {α : Type} {s : Snapshot} {c : Config} {m : Machine Table}

theorem steady_perform (r : Request α) : Steady s (r.perform c) :=
  stepwise_perform (stepwise_steady s) r fun _ _ => trivial

/-! ## Histories -/

theorem snapshot_perform (hs : m.state.snapshot = s) (r : Request α) :
    (r.perform c m).2.state.snapshot = s := by
  have same : Alike s m m := ⟨hs, hs, .inl ⟨rfl, rfl⟩⟩
  exact (steady_perform r same).2.left

theorem snapshot_after (hs : m.state.snapshot = s) (history : List (Sigma Request)) :
    (after c m history).state.snapshot = s := by
  induction history generalizing m with
  | nil => exact hs
  | cons r rest ih => exact ih (snapshot_perform hs r.2)

/-- Whatever was asked of a session before, and however it ended, the session answers a request as a
fresh one does, if the text that was staged last is in reach of a slice. -/
theorem perform_after (s : Snapshot) (c : Config) (history : List (Sigma Request)) (r : Request α)
    (small : (after c (start s) history).state.staged < 2 ^ 32) :
    (r.perform c (after c (start s) history)).1 = (r.perform c (start s)).1 := by
  -- a fresh session has nothing staged, so its answers are in reach too
  have alike : Alike s (after c (start s) history) (start s) :=
    ⟨snapshot_after rfl history, rfl, .inr ⟨small, Nat.two_pow_pos 32⟩⟩
  exact (steady_perform r alike).1

/-- A text was staged, an alias was categorized and a request failed before the document is asked
for. -/
theorem perform_after_sample :
    let history : List (Sigma Request) :=
      [⟨_, .findDeclaration "std.mem"⟩, ⟨_, .classify ⟨7⟩⟩, ⟨_, .classify ⟨99⟩⟩]
    (after {} (start Snapshot.sample) history).state.staged < 2 ^ 32 ∧
      (Index.classify ⟨99⟩ (start Snapshot.sample)).1 = .error (.unknownDecl 99) ∧
      ((Request.document "ArrayList").perform {} (after {} (start Snapshot.sample) history)).1 =
        ((Request.document "ArrayList").perform {} (start Snapshot.sample)).1 := by
  intro history
  have closed : Snapshot.sample.RootsClosed := Snapshot.tidy_sample.toRootsClosed
  have short : Utf8.Short "std.mem" := by decide
  have staged := (answers_findDeclaration closed short _ (serves_start Snapshot.sample)).2
  have served := (gives_classify ⟨99⟩ _ (gives_classify ⟨7⟩ _ staged).2).2
  have small : (after {} (start Snapshot.sample) history).state.staged < 2 ^ 32 := served.staged_lt
  refine ⟨small, ?_, perform_after Snapshot.sample {} history (.document "ArrayList") small⟩
  obtain ⟨target, run⟩ := classify_run 99 (start Snapshot.sample)
  rw [run]
  rfl

end DocIndex.Session
