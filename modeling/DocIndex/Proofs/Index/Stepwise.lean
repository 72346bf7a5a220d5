import DocIndex.Proofs.Engine.Alike
import DocIndex.Unwind

/-!
# Step by step

Computations over the index are put together from calls, results and binds. A relation between
computations on two engines, or on one and the same, that has a rule for each of these (`Stepwise`)
relates every function of the index on the one to the same function on the other, so a property of
all that an index does takes a proof for each kind of call only. Which texts may be looked up is
part of the rules: a relation may hold for some texts and not for others.
-/

namespace DocIndex.Index

variable {σ τ : Type} [Engine σ] [Engine τ]

/-- The rules by which a relation is established step by step. `texts e t` is whether the text `t`
may be looked up by the export `e`. -/
structure Stepwise (texts : Export → String → Prop)
    (J : ∀ ⦃α : Type⦄, Index σ α → Index τ α → Prop) : Prop where
  pure : ∀ {α : Type} (a : α), J (Pure.pure a) (Pure.pure a)
  bind : ∀ {α β : Type} {x : Index σ α} {y : Index τ α} {f : α → Index σ β} {g : α → Index τ β},
    J x y → (∀ a, J (f a) (g a)) → J (x >>= f) (y >>= g)
  ofExcept : ∀ {α : Type} (r : Except Fault α), J (Index.ofExcept r) (Index.ofExcept r)
  call : ∀ {e : Export} {args : List UInt64}, e.Yields 0 → J (Index.call e args) (Index.call e args)
  callSlice : ∀ {α : Type} {e : Export} {args : List UInt64} {width : Nat}
    {read : Slice → Memory → Except Fault α}, e.Yields width → width ≠ 0 → Slice.Reads read width →
      J (Index.callSlice read e args) (Index.callSlice read e args)
  classify : ∀ h, J (Index.classify h) (Index.classify h)
  findDeclaration : ∀ {path : String}, texts .findDecl path →
    J (Index.findDeclaration path) (Index.findDeclaration path)
  fileRoot : ∀ {path : String}, texts .fileRoot path → J (Index.fileRoot path) (Index.fileRoot path)
  runQuery : ∀ {text : String} {ignoreCase : Bool}, texts .queryExec text →
    J (Index.runQuery text ignoreCase) (Index.runQuery text ignoreCase)

variable {texts : Export → String → Prop} {J : ∀ ⦃α : Type⦄, Index σ α → Index τ α → Prop}
  {α β : Type} {e : Export} {args : List UInt64}

section

variable (step : Stepwise texts J)

include step

/-! ## Lists and maps -/

theorem stepwise_map {x : Index σ α} {y : Index τ α} (h : J x y) (f : α → β) :
    J (f <$> x) (f <$> y) := by
  rw [map_eq_pure_bind, map_eq_pure_bind]
  exact step.bind h fun a => step.pure (f a)

theorem stepwise_mapM {f : α → Index σ β} {g : α → Index τ β} (h : ∀ a, J (f a) (g a))
    (l : List α) : J (l.mapM f) (l.mapM g) := by
  induction l with
  | nil => exact step.pure []
  | cons a l ih =>
    rw [List.mapM_cons, List.mapM_cons]
    exact step.bind (h a) fun b => step.bind ih fun bs => step.pure (b :: bs)

/-! ## Calls -/

theorem stepwise_callText (yields : e.Yields 1) : J (callText e args) (callText e args) :=
  step.callSlice yields Nat.one_ne_zero Slice.reads_text

theorem stepwise_callWords (yields : e.Yields 4) : J (callWords e args) (callWords e args) :=
  step.callSlice yields (Nat.succ_ne_zero 3) Slice.reads_words

theorem stepwise_callHandles (yields : e.Yields 4) : J (callHandles e args) (callHandles e args) :=
  step.bind (stepwise_callWords step yields) fun _ => step.pure _

theorem stepwise_callHandle (yields : e.Yields 0) : J (callHandle e args) (callHandle e args) :=
  step.bind (step.call yields) fun _ => step.ofExcept _

theorem stepwise_callHandle? (yields : e.Yields 0) : J (callHandle? e args) (callHandle? e args) :=
  step.bind (step.call yields) fun _ => step.ofExcept _

/-! ## Declarations -/

theorem stepwise_namespaceMembers (h : Handle) (includePrivate : Bool) :
    J (namespaceMembers h includePrivate) (namespaceMembers h includePrivate) :=
  stepwise_callHandles step (by decide)

theorem stepwise_typeFunctionMembers (h : Handle) (includePrivate : Bool) :
    J (typeFunctionMembers h includePrivate) (typeFunctionMembers h includePrivate) :=
  stepwise_callHandles step (by decide)

theorem stepwise_fields (h : Handle) : J (fields h) (fields h) :=
  step.bind (stepwise_callWords step (by decide)) fun _ => step.pure _

theorem stepwise_params (h : Handle) : J (params h) (params h) :=
  step.bind (stepwise_callWords step (by decide)) fun _ => step.pure _

theorem stepwise_errorSet (h : Handle) : J (errorSet h) (errorSet h) :=
  step.bind (step.call (by decide)) fun _ => step.pure _

theorem stepwise_errorSetEntries (h : Handle) (set : ErrorSetRef) :
    J (errorSetEntries h set) (errorSetEntries h set) :=
  step.bind (step.callSlice (by decide) (Nat.succ_ne_zero 7) Slice.reads_longWords) fun _ =>
    step.pure _

/-! ## Aliases -/

theorem stepwise_unwindFrom (visited : List Handle) (current : Handle) :
    J (unwindFrom visited current) (unwindFrom visited current) := by
  unfold unwindFrom
  split
  · exact step.pure _
  · refine step.bind (step.classify current) fun p => ?_
    split
    · exact stepwise_unwindFrom (current :: visited) _
    · exact step.pure _
    · exact step.pure _
termination_by unvisited visited
decreasing_by exact unvisited_cons_lt ‹_›

theorem stepwise_unwind (h : Handle) : J (unwind h) (unwind h) :=
  stepwise_unwindFrom step [] h

/-! ## Modules -/

theorem stepwise_moduleName (i : UInt32) : J (moduleName i) (moduleName i) :=
  step.bind (stepwise_callText step (by decide)) fun _ => step.pure _

theorem stepwise_modulesFrom (i : Nat) : J (modulesFrom i) (modulesFrom i) := by
  unfold modulesFrom
  split_ifs
  · refine step.bind (stepwise_moduleName step _) fun name => ?_
    cases name with
    | none => exact step.pure []
    | some name => exact step.bind (stepwise_modulesFrom (i + 1)) fun _ => step.pure _
  · exact step.ofExcept (.error overflow)
termination_by UInt32.size - i

theorem stepwise_moduleRootNamedFrom (name : String) (i : Nat) :
    J (moduleRootNamedFrom name i) (moduleRootNamedFrom name i) := by
  unfold moduleRootNamedFrom
  split_ifs
  · refine step.bind (stepwise_moduleName step _) fun found => ?_
    cases found with
    | none => exact step.pure none
    | some found =>
      dsimp only
      split_ifs
      · exact step.bind (stepwise_callHandle step (by decide)) fun _ => step.pure _
      · exact stepwise_moduleRootNamedFrom name (i + 1)
  · exact step.ofExcept (.error overflow)
termination_by UInt32.size - i

end

end DocIndex.Index
