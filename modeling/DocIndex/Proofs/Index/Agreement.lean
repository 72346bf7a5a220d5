import DocIndex.Proofs.Index.Answers

/-!
# Runs that agree

Two computations, on one engine or on two, agree under a relation between their machines if their
runs from related machines have the same result and leave related machines behind (`Agrees`). The
rules follow the computations.
-/

namespace DocIndex.Index

variable {σ τ α β : Type}

theorem ofExcept_run (r : Except Fault α) (m : Machine σ) : ofExcept r m = (r, m) := by
  cases r <;> rfl

/-! ## Calls with memory -/

section Calls

variable [Engine σ] {e : Export} {args : List UInt64}

/-- A slice is read from the memory that its call left behind. -/
theorem run_callSlice (read : Slice → Memory → Except Fault α) (m : Machine σ) :
    callSlice read e args m =
      match call e args m with
      | (.ok word, m') => (read (.unpack word) m'.memory, m')
      | (.error f, m') => (.error f, m') := by
  rw [callSlice, run_bind]
  rcases call e args m with ⟨f | word, m'⟩
  · rfl
  · exact ofExcept_run (read (.unpack word) m'.memory) m'

/-- A text is written into the memory that making room left behind, if it fits. -/
theorem run_stage (room : Export) (text : String) (m : Machine σ) :
    stage room text m =
      match call room [UInt64.ofNat (Utf8.encode text).length] m with
      | (.ok word, m') =>
        if word.toNat + (Utf8.encode text).length ≤ m'.memory.length then
          (.ok (), { m' with memory := m'.memory.overwrite word.toNat (Utf8.encode text) })
        else (.error (.outOfBounds word.toNat (Utf8.encode text).length m'.memory.length), m')
      | (.error f, m') => (.error f, m') := by
  rw [stage, run_bind]
  rcases call room [UInt64.ofNat (Utf8.encode text).length] m with ⟨f | word, m'⟩
  · rfl
  · show (if word.toNat + _ ≤ _ then _ else _ : Index σ Unit) _ = _
    dsimp only
    split_ifs <;> rfl

end Calls

/-! ## Runs side by side -/

/-- Whether the runs of two computations from machines that are related by `R` have the same result
and leave machines behind that are related by `R'`. -/
def Agrees (R R' : Machine σ → Machine τ → Prop) (x : Index σ α) (y : Index τ α) : Prop :=
  ∀ ⦃m n⦄, R m n → (x m).1 = (y n).1 ∧ R' (x m).2 (y n).2

variable {R R' R'' : Machine σ → Machine τ → Prop} {x : Index σ α} {y : Index τ α}
  {f : α → Index σ β} {g : α → Index τ β}

theorem agrees_pure (a : α) : Agrees R R (pure a) (pure a) :=
  fun _ _ h => ⟨rfl, h⟩

theorem agrees_throw (e : Fault) : Agrees R R (throw e : Index σ α) (throw e) :=
  fun _ _ h => ⟨rfl, h⟩

theorem agrees_ofExcept (r : Except Fault α) : Agrees R R (ofExcept r) (ofExcept r) := by
  intro m n h
  rw [ofExcept_run, ofExcept_run]
  exact ⟨rfl, h⟩

/-- What a fault in the first parts leaves behind has to do for the whole. -/
theorem Agrees.andThen (hx : Agrees R R' x y) (hf : ∀ a, Agrees R' R'' (f a) (g a))
    (fault : ∀ ⦃m n⦄, R' m n → R'' m n) : Agrees R R'' (x >>= f) (y >>= g) := by
  intro m n h
  obtain ⟨result, after⟩ := hx h
  rw [run_bind, run_bind]
  rcases hm : x m with ⟨e | a, m'⟩ <;> rcases hn : y n with ⟨e' | a', n'⟩ <;>
    rw [hm, hn] at result after <;> cases result
  · exact ⟨rfl, fault after⟩
  · exact hf a after

theorem Agrees.bind (hx : Agrees R R x y) (hf : ∀ a, Agrees R R (f a) (g a)) :
    Agrees R R (x >>= f) (y >>= g) :=
  hx.andThen hf fun _ _ h => h

theorem Agrees.mono (hx : Agrees R R' x y) (h : ∀ ⦃m n⦄, R' m n → R'' m n) : Agrees R R'' x y :=
  fun _ _ hm => ⟨(hx hm).1, h (hx hm).2⟩

end DocIndex.Index
