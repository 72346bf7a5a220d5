import DocIndex.Engine.Scripted
import DocIndex.Proofs.Index.Agreement
import DocIndex.Proofs.Index.Stepwise

/-!
# Recorded runs

Recording the calls of an engine changes nothing of what a computation gives (`Mirrors`). `asked`
are the arguments with which one of the exports was called. On any engine, unwinding asks for the
category of each declaration at most once (`nodup_asked_unwind`).
-/

namespace DocIndex

namespace Recorded

variable {σ : Type}

/-- The engine without the record of its calls. -/
def plain (m : Machine (Recorded σ)) : Machine σ :=
  ⟨m.state.state, m.memory⟩

/-- The arguments of the calls of an export so far, in their order. -/
def asked (e : Export) (m : Machine (Recorded σ)) : List (List UInt64) :=
  ((log m).filter (·.symbol = e)).map (·.args)

theorem asked_start (e : Export) (m : Machine σ) : asked e (start m) = [] :=
  rfl

end Recorded

namespace Index

open Recorded

variable {σ α : Type}

/-! ## The same results -/

/-- Whether a computation on a recorded engine does the same as one on the engine itself. -/
abbrev Mirrors (x : Index (Recorded σ) α) (y : Index σ α) : Prop :=
  Agrees (fun m n => plain m = n) (fun m n => plain m = n) x y

variable [Engine σ]

theorem call_plain (e : Export) (args : List UInt64) (m : Machine (Recorded σ)) :
    call e args (plain m) = ((call e args m).1, plain (call e args m).2) :=
  rfl

theorem mirrors_call (e : Export) (args : List UInt64) :
    Mirrors (call e args : Index (Recorded σ) UInt64) (call e args) := by
  rintro m _ rfl
  exact ⟨rfl, rfl⟩

theorem mirrors_callHandle? (e : Export) (args : List UInt64) :
    Mirrors (callHandle? e args : Index (Recorded σ) (Option Handle)) (callHandle? e args) :=
  (mirrors_call e args).bind fun _ => agrees_ofExcept _

theorem mirrors_classify (h : Handle) :
    Mirrors (classify h : Index (Recorded σ) (Category × Option Handle)) (classify h) := by
  refine (mirrors_call .categorize [h.word]).bind fun code => ?_
  cases Category.ofCode? code.toNat with
  | none => exact agrees_throw _
  | some category =>
    cases category with
    | redirect => exact (mirrors_callHandle? .aliasee []).bind fun _ => agrees_pure _
    | _ => exact agrees_pure _

theorem mirrors_callSlice (read : Slice → Memory → Except Fault α) (e : Export)
    (args : List UInt64) :
    Mirrors (callSlice read e args : Index (Recorded σ) α) (callSlice read e args) := by
  rintro m _ rfl
  rw [run_callSlice, run_callSlice, call_plain]
  rcases call e args m with ⟨f | word, m'⟩ <;> exact ⟨rfl, rfl⟩

theorem mirrors_stage (room : Export) (text : String) :
    Mirrors (stage room text : Index (Recorded σ) Unit) (stage room text) := by
  rintro m _ rfl
  rw [run_stage, run_stage, call_plain]
  rcases call room _ m with ⟨f | word, m'⟩
  · exact ⟨rfl, rfl⟩
  · have same : (plain m').memory = m'.memory := rfl
    dsimp only
    rw [same]
    split_ifs <;> exact ⟨rfl, rfl⟩

/-- Recording changes nothing of what is done, whatever is looked up. -/
theorem stepwise_mirrors :
    Stepwise (fun _ _ => True) fun _ (x : Index (Recorded σ) _) (y : Index σ _) => Mirrors x y where
  pure := agrees_pure
  bind := Agrees.bind
  ofExcept := agrees_ofExcept
  call _ := mirrors_call _ _
  callSlice _ _ _ := mirrors_callSlice _ _ _
  classify := mirrors_classify
  findDeclaration _ := (mirrors_stage _ _).bind fun _ => mirrors_callHandle? _ _
  fileRoot _ := (mirrors_stage _ _).bind fun _ => mirrors_callHandle? _ _
  runQuery _ := (mirrors_stage _ _).bind fun _ =>
    ((mirrors_callSlice _ _ _).bind fun _ => agrees_pure _)

theorem mirrors_unwindFrom (visited : List Handle) (current : Handle) :
    Mirrors (unwindFrom visited current : Index (Recorded σ) Unwound)
      (unwindFrom visited current) :=
  stepwise_unwindFrom stepwise_mirrors visited current

/-! ## What is asked -/

theorem asked_call (e : Export) (args : List UInt64) (m : Machine (Recorded σ)) :
    asked e (call e args m).2 = asked e m ++ [args] := by
  show ((m.state.calls.cons _).reverse.filter _).map _ = _
  simp [asked, log]

theorem asked_call_of_ne {e e' : Export} (other : e' ≠ e) (args : List UInt64)
    (m : Machine (Recorded σ)) : asked e (call e' args m).2 = asked e m := by
  show ((m.state.calls.cons _).reverse.filter _).map _ = _
  simp [asked, log, other]

theorem asked_callHandle? {e e' : Export} (other : e' ≠ e) (args : List UInt64)
    (m : Machine (Recorded σ)) : asked e (callHandle? e' args m).2 = asked e m := by
  have kept := asked_call_of_ne other args m
  rw [callHandle?, run_bind]
  rcases hc : call e' args m with ⟨f | word, m'⟩ <;> rw [hc] at kept
  · exact kept
  · show asked e (ofExcept (Handle.ofWord? word) m').2 = _
    cases Handle.ofWord? word <;> exact kept

/-- Classifying a declaration asks for its category and for no other one's. -/
theorem asked_classify (h : Handle) (m : Machine (Recorded σ)) :
    asked .categorize (classify h m).2 = asked .categorize m ++ [[h.word]] := by
  have once := asked_call .categorize [h.word] m
  rw [classify, run_bind]
  rcases hc : call .categorize [h.word] m with ⟨f | code, m'⟩ <;> rw [hc] at once
  · exact once
  · simp only
    cases Category.ofCode? code.toNat with
    | none => exact once
    | some category =>
      cases category with
      | redirect =>
        have other : Export.aliasee ≠ .categorize := by decide
        have kept := asked_callHandle? other [] m'
        simp only
        rw [run_bind]
        rcases ha : callHandle? .aliasee [] m' with ⟨f | t, m''⟩ <;> rw [ha] at kept <;>
          exact kept.trans once
      | _ => exact once

/-- Unwinding asks for the categories of distinct declarations that it has not visited. -/
theorem exists_asked_unwindFrom (visited : List Handle) (current : Handle)
    (m : Machine (Recorded σ)) :
    ∃ new : List Handle, new.Nodup ∧ (∀ h ∈ new, h ∉ visited) ∧
      asked .categorize (unwindFrom visited current m).2 =
        asked .categorize m ++ new.map fun h => [h.word] := by
  rw [unwindFrom]
  split
  · exact ⟨[], List.nodup_nil, by simp, by simp; rfl⟩
  · next fresh =>
    have once := asked_classify current m
    rw [run_bind]
    rcases hc : classify current m with ⟨f | p, m'⟩ <;> rw [hc] at once
    · exact ⟨[current], List.nodup_singleton current, by simpa using fresh, once⟩
    · simp only
      split
      · next t =>
        obtain ⟨new, distinct, unseen, rest⟩ := exists_asked_unwindFrom (current :: visited) t m'
        refine ⟨current :: new, ?_, ?_, ?_⟩
        · exact List.nodup_cons.2 ⟨fun again => unseen _ again List.mem_cons_self, distinct⟩
        · rintro h hh back
          rcases List.mem_cons.1 hh with rfl | hh
          · exact fresh back
          · exact unseen h hh (List.mem_cons_of_mem _ back)
        · rw [rest, once]
          simp
      · exact ⟨[current], List.nodup_singleton current, by simpa using fresh, once⟩
      · exact ⟨[current], List.nodup_singleton current, by simpa using fresh, once⟩
termination_by unvisited visited
decreasing_by exact unvisited_cons_lt ‹_›

theorem nodup_asked_unwind (h : Handle) (m : Machine σ) :
    (asked .categorize (unwind h (start m)).2).Nodup := by
  obtain ⟨new, distinct, -, rest⟩ := exists_asked_unwindFrom [] h (start m)
  rw [unwind, rest, asked_start, List.nil_append]
  refine distinct.map fun a b same => ?_
  have word : a.index.toUInt64 = b.index.toUInt64 := (List.cons.inj same).1
  exact congrArg Handle.mk (UInt32.toUInt64_inj.1 word)

end Index

end DocIndex
