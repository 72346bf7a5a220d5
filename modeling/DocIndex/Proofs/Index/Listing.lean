import DocIndex.Proofs.Resolve.Resolution
import DocIndex.Proofs.Session.Stepwise

/-!
# What listings say of names

Every listing gives each member with the public form of its fully qualified name as its path
(`gives_listChildren`, `gives_listRoot`). Behind everything else that is done on the way the machine
still serves the snapshot (`stepwise_gives`), and what comes back does not matter.
-/

namespace DocIndex.Index

open Table

variable {s : Snapshot} {c : Config} {α : Type} {e : Export} {args : List UInt64}

/-! ## What does not matter -/

theorem gives_ofExcept (s : Snapshot) (r : Except Fault α) :
    Gives s (ofExcept r) fun _ => True :=
  fun m h => ⟨fun _ _ => trivial, (answers_ofExcept s r m h).2⟩

theorem gives_callHandle? (noRoom : ¬ e.MakesRoom) :
    Gives s (callHandle? e args) fun _ => True :=
  (gives_call noRoom).bind fun _ _ => gives_ofExcept s _

theorem gives_callSlice (read : Slice → Memory → Except Fault α) (noRoom : ¬ e.MakesRoom) :
    Gives s (callSlice read e args) fun _ => True := by
  refine (gives_call noRoom).bind fun word _ m h => ?_
  exact gives_ofExcept s (read (.unpack word) m.memory) m h

theorem gives_stage {text : String} (makes : e.MakesRoom) (short : Utf8.Short text) :
    Gives s (stage e text) fun _ => True := by
  intro m h
  rw [stage_run makes short.counted]
  exact ⟨fun _ _ => trivial, h.holding short⟩

theorem gives_classify (h : Handle) : Gives s (classify h) fun _ => True := by
  refine (gives_call (by decide)).bind fun code _ => ?_
  cases Category.ofCode? code.toNat with
  | none => exact fun m hm => ⟨fun _ _ => trivial, hm⟩
  | some category =>
    cases category with
    | redirect => exact (gives_callHandle? (by decide)).bind fun _ _ => gives_pure s trivial
    | _ => exact gives_pure s trivial

/-- Behind everything that is done the machine still serves the snapshot, if the texts that are
looked up are short. -/
theorem stepwise_gives (s : Snapshot) : Stepwise (fun _ text => Utf8.Short text)
    fun _ (x _ : Index Table _) => Gives s x fun _ => True where
  pure _ := gives_pure s trivial
  bind hx hf := hx.bind fun a _ => hf a
  ofExcept := gives_ofExcept s
  call yields := gives_call yields.noRoom
  callSlice yields _ _ := gives_callSlice _ yields.noRoom
  classify := gives_classify
  findDeclaration short := (gives_stage (by decide) short).bind fun _ _ =>
    gives_callHandle? (by decide)
  fileRoot short := (gives_stage (by decide) short).bind fun _ _ => gives_callHandle? (by decide)
  runQuery short := (gives_stage (by decide) short).bind fun _ _ =>
    (gives_callSlice _ (by decide)).bind fun _ _ => gives_pure s trivial

/-! ## Members -/

theorem gives_describe (fits : s.Fits) (child : Handle) :
    Gives s (describe c child) fun o =>
      ∀ m ∈ o, m.path = c.publicName (s.fqn m.handle.index) := by
  refine (gives_callSlice _ (by decide)).bind fun displayName _ => ?_
  refine (stepwise_unwind (stepwise_gives s) child).bind fun way _ => ?_
  cases way.concrete? with
  | none => exact gives_pure s nofun
  | some target =>
    refine (gives_callSlice _ (by decide)).bind fun html _ => ?_
    refine (gives_fullyQualifiedName (fits.fqn child.index)).bind fun fqn hfqn => ?_
    refine gives_pure s fun m hm => ?_
    cases hm
    rw [hfqn]

theorem gives_describeAll (fits : s.Fits) (filter : CategorySet) (l : List Handle) :
    Gives s (describeAll c filter l) fun members =>
      ∀ m ∈ members, m.path = c.publicName (s.fqn m.handle.index) := by
  induction l with
  | nil => exact gives_pure s (by simp)
  | cons child rest ih =>
    refine (gives_describe fits child).bind fun member hmember => ?_
    refine ih.bind fun others hothers => gives_pure s fun m hm => ?_
    rcases List.mem_append.1 hm with hm | hm
    · rw [Option.mem_toList, Option.filter_eq_some_iff] at hm
      exact hmember m hm.1
    · exact hothers m hm

theorem gives_listChildren (fits : s.Fits) (parent : Handle) (filter : CategorySet) :
    Gives s (listChildren c parent filter) fun members =>
      ∀ m ∈ members, m.path = c.publicName (s.fqn m.handle.index) := by
  refine (stepwise_unwind (stepwise_gives s) parent).bind fun way _ => ?_
  cases way.concrete? with
  | none => exact gives_pure s (by simp)
  | some scope =>
    simp only
    split_ifs
    · exact (stepwise_typeFunctionMembers (stepwise_gives s) scope.1 _).bind fun l _ =>
        gives_describeAll fits filter l
    · exact (stepwise_namespaceMembers (stepwise_gives s) scope.1 _).bind fun l _ =>
        gives_describeAll fits filter l
    · exact gives_pure s (by simp)

theorem gives_listRoot (closed : s.RootsClosed) (fits : s.Fits) (short : Utf8.Short c.publicAlias)
    (filter : CategorySet) :
    Gives s (listRoot c filter) fun members =>
      ∀ m ∈ members, m.path = c.publicName (s.fqn m.handle.index) := by
  have listed (l : List Handle) : Gives s
      (do
        let members ← describeAll c filter l
        return members.mergeSort fun a b => a.displayName ≤ b.displayName)
      fun members => ∀ m ∈ members, m.path = c.publicName (s.fqn m.handle.index) :=
    (gives_describeAll fits filter l).bind fun members h =>
      gives_pure s fun m hm => h m (List.mem_mergeSort.1 hm)
  refine ((stepwise_gives s).runQuery short).bind fun hits _ => ?_
  refine (stepwise_topLevel (stepwise_gives s) [] hits).bind fun found _ => ?_
  simp only
  split_ifs
  · have asked := answers_moduleRootNamed fits.modules fits.moduleName closed.toModulesClosed
    refine (asked c.internalRoot).gives.bind fun root _ => ?_
    cases root with
    | none => exact (gives_pure s trivial).bind fun l (_ : True) => listed l
    | some root =>
      exact (stepwise_namespaceMembers (stepwise_gives s) root _).bind fun l _ => listed l
  · exact (gives_pure s trivial).bind fun l (_ : True) => listed l

end DocIndex.Index
