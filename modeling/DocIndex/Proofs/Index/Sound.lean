import DocIndex.Proofs.Index.Unwinding

/-!
# Sound snapshots

A closed snapshot is `Sound` if its texts fit the memory of an engine. Over such a snapshot
unwinding finds the declaration that is shown in the place of another, or that there is none
(`exists_answers_unwind`), and what is asked of a declaration is answered. A computation `Returns`
if its answer is no fault, whatever it is; a call may depend on an answer in front of it
(`Answers.bind_returns`).
-/

namespace DocIndex

/-- The errors of the error set of a declaration. -/
def Decl.errors (d : Decl) : List ErrorEntry :=
  (d.errorSet.map (·.errors)).getD []

/-- The texts of a declaration that an engine hands out. -/
def Decl.texts (d : Decl) : List String :=
  [d.name, d.docsHtml, Snapshot.summary d.docsHtml, d.signatureHtml, d.exampleHtml, d.sourceHtml] ++
    d.params ++ d.fields ++ d.errors.map Snapshot.errorHtml

/-- A category of declarations whose members are handed out as those of a namespace. -/
def Category.isScope (category : Category) : Bool :=
  category = nameSpace || category = container

namespace Snapshot

/-- The texts of the snapshot are short enough for the slices of an engine. -/
structure Readable (s : Snapshot) : Prop where
  moduleName : ∀ m ∈ s.modules, Utf8.Short m.name
  text : ∀ d ∈ s.decls, ∀ t ∈ d.texts, Utf8.Short t
  fqn : ∀ i, s.Declares i → Utf8.Short (s.fqn i)

/-- A closed snapshot with short texts. -/
structure Sound (s : Snapshot) : Prop extends s.Closed, s.Readable

instance (s : Snapshot) : Decidable s.Readable :=
  decidable_of_iff ((∀ m ∈ s.modules, Utf8.Short m.name) ∧
      (∀ d ∈ s.decls, ∀ t ∈ d.texts, Utf8.Short t) ∧ s.Each fun i _ => Utf8.Short (s.fqn i))
    ⟨fun ⟨a, b, h⟩ => ⟨a, b, fun i hi => (exists_decl?_iff.2 hi).elim (h i)⟩,
      fun ⟨a, b, h⟩ => ⟨a, b, fun i _ hd => h i (declares_of_decl? hd)⟩⟩

theorem readable_sample : sample.Readable := by
  decide +kernel

theorem sound_sample : sample.Sound :=
  ⟨tidy_sample.toClosed, readable_sample⟩

/-! ## Where aliases lead -/

variable {s : Snapshot} {i j t : UInt32} {d : Decl}

/-- The declaration that is shown in the place of another: the one that the aliases lead to. -/
def shown? (s : Snapshot) (i : UInt32) : Option (UInt32 × Decl) :=
  (s.follow i).bind fun t => (s.decl? t).map (t, ·)

theorem shown?_eq_some_iff :
    s.shown? i = some (t, d) ↔ s.follow i = some t ∧ s.decl? t = some d := by
  simp only [shown?, Option.bind_eq_some_iff, Option.map_eq_some_iff, Prod.mk.injEq]
  constructor
  · rintro ⟨_, followed, _, declared, rfl, rfl⟩
    exact ⟨followed, declared⟩
  · rintro ⟨followed, declared⟩
    exact ⟨t, followed, d, declared, rfl, rfl⟩

theorem isConcrete_of_follow (followed : s.follow i = some t) : s.IsConcrete t :=
  (follow_eq_some_iff.1 followed).elim fun _ h => h.2

theorem shown?_eq_none_iff : s.shown? i = none ↔ s.follow i = none := by
  cases followed : s.follow i with
  | none => simp [shown?, followed]
  | some t =>
    obtain ⟨d, declared, -⟩ := isConcrete_of_follow followed
    simp [shown?, followed, declared]

theorem Closed.declares_of_link (closed : s.Closed) (hi : s.Declares i) {n : Nat}
    (reached : link s.target? n i = some j) : s.Declares j := by
  induction n generalizing i with
  | zero =>
    obtain rfl : i = j := Option.some.inj reached
    exact hi
  | succ n ih =>
    obtain ⟨k, hk, reached⟩ := Option.bind_eq_some_iff.1 reached
    obtain ⟨d, hd, named⟩ := Option.bind_eq_some_iff.1 (target?_eq_some_iff.1 hk).1
    apply ih _ reached
    split_ifs at named
    exact closed.aliasee d (mem_of_decl? hd) k named

/-- In a closed snapshot no chain of aliases leaves the table. -/
theorem Closed.exists_leads (closed : s.Closed) (hi : s.Declares i) :
    ∃ way, s.Leads i (.ok way) := by
  obtain ⟨n, j, target, stops, -⟩ := Index.exists_stops_unwind (Table.start s) i
  have leads : s.Leads i (s.outcome j) := leads_outcome stops
  rw [outcome] at leads
  split_ifs at leads
  · obtain ⟨d, hd⟩ := exists_decl?_iff.2 (closed.declares_of_link hi stops.link)
    rw [ending, hd] at leads
    exact ⟨_, leads⟩
  · exact ⟨_, leads⟩

/-- A chain that ends at a declaration ends at the one that is shown. -/
theorem Leads.concrete?_eq (size : s.decls.size < 2 ^ 32) {way : Unwound}
    (leads : s.Leads i (.ok way)) :
    way.concrete? = (s.shown? i).map fun (t, d) => (⟨t⟩, d.category) := by
  cases followed : s.follow i with
  | none =>
    rw [shown?_eq_none_iff.2 followed]
    cases way with
    | concrete t category =>
      rw [follow_of_leads leads] at followed
      cases followed
    | dangling h => rfl
    | cycle h => rfl
  | some t =>
    obtain ⟨category, leads'⟩ := exists_leads_of_follow size followed
    obtain ⟨n, j, stops, rfl'⟩ := leads.exists_stops
    have same := (leads_iff stops).1 leads'
    rw [← rfl'] at same
    cases same
    obtain ⟨d, declared, -⟩ := isConcrete_of_follow followed
    rw [shown?_eq_some_iff.2 ⟨followed, declared⟩]
    cases leads with
    | concrete _ declared' _ =>
      cases declared.symm.trans declared'
      rfl

end Snapshot

namespace Index

open Snapshot Table

variable {α β : Type} {s : Snapshot} {x : Index Table α} {f : α → Index Table β}
  {i : UInt32} {d : Decl}

theorem answers_unwind {r : Except Fault Unwound} (leads : s.Leads i r) :
    Answers s (unwind ⟨i⟩) r := by
  intro m hm
  obtain ⟨r', target, leads', run⟩ := unwind_run m i
  obtain ⟨n, j, stops, rfl⟩ := leads.exists_stops
  rw [hm.snapshot] at leads'
  rw [run, (leads_iff stops).1 leads']
  exact ⟨rfl, hm.retarget target⟩

/-- Unwinding finds the declaration that is shown, if there is one. -/
theorem exists_answers_unwind (closed : s.Closed) (hi : s.Declares i) :
    ∃ way, Answers s (unwind ⟨i⟩) (.ok way) ∧
      way.concrete? = (s.shown? i).map fun (t, d) => (⟨t⟩, d.category) := by
  obtain ⟨way, leads⟩ := closed.exists_leads hi
  exact ⟨way, answers_unwind leads, leads.concrete?_eq closed.size_lt⟩

/-! ## Returning -/

/-- Whether a computation has a result that is no fault, the same one on every machine that serves
the snapshot. -/
def Returns (s : Snapshot) (x : Index Table α) : Prop :=
  ∃ a, Answers s x (.ok a)

theorem Answers.returns {a : α} (h : Answers s x (.ok a)) : Returns s x :=
  ⟨a, h⟩

theorem Answers.bind_returns {a : α} (hx : Answers s x (.ok a)) (hf : Returns s (f a)) :
    Returns s (x >>= f) :=
  hf.elim fun _ h => (hx.bind h).returns

theorem Returns.bind (hx : Returns s x) (hf : ∀ a, Returns s (f a)) : Returns s (x >>= f) :=
  hx.elim fun a h => h.bind_returns (hf a)

theorem answers_mapM {l : List α} {l' : List β}
    (h : List.Forall₂ (fun a b => Answers s (f a) (.ok b)) l l') :
    Answers s (l.mapM f) (.ok l') := by
  induction h with
  | nil => exact answers_pure s []
  | cons here _ ih =>
    rw [List.mapM_cons]
    exact here.bind (ih.bind (answers_pure s _))

/-! ## Declarations -/

variable {e : Export} {args : List UInt64} {t : String}

/-- What an export answers that asks the table for a declaration first. -/
theorem reply_of_declAt {k : Decl → Except Fault Reply} {r : Except Fault Reply} {word : UInt64}
    (hd : s.declAt word = .ok d) (reply : ∀ input, s.reply input e args = s.declAt word >>= k)
    (hk : k d = r) (input : String) : s.reply input e args = r := by
  rw [reply, hd]
  exact hk

theorem answers_declText {k : Decl → Except Fault Reply} (sound : s.Sound)
    (hd : s.decl? i = some d) (stateless : e.Stateless)
    (reply : ∀ input, s.reply input e args = s.declAt i.toUInt64 >>= k)
    (text : k d = .ok (.text t)) (ht : t ∈ d.texts) : Answers s (callText e args) (.ok t) :=
  answers_callText stateless (reply_of_declAt (declAt_eq hd) reply text)
    (sound.text d (mem_of_decl? hd) t ht)

theorem answers_declaredName (sound : s.Sound) (hd : s.decl? i = some d) :
    Answers s (declaredName ⟨i⟩) (.ok d.name) :=
  answers_declText sound hd (by decide) (fun _ => rfl) rfl (by simp [Decl.texts])

theorem answers_docsHtml (sound : s.Sound) (hd : s.decl? i = some d) (short : Bool) :
    Answers s (docsHtml ⟨i⟩ short) (.ok (if short then summary d.docsHtml else d.docsHtml)) := by
  cases short with
  | true => exact answers_declText sound hd (by decide) (fun _ => rfl) rfl (by simp [Decl.texts])
  | false => exact answers_declText sound hd (by decide) (fun _ => rfl) rfl (by simp [Decl.texts])

theorem answers_signatureHtml (sound : s.Sound) (hd : s.decl? i = some d) (short : Bool) :
    Answers s (signatureHtml ⟨i⟩ short) (.ok d.signatureHtml) :=
  answers_declText sound hd (by decide) (fun _ => rfl) rfl (by simp [Decl.texts])

theorem answers_exampleHtml (sound : s.Sound) (hd : s.decl? i = some d) :
    Answers s (exampleHtml ⟨i⟩) (.ok d.exampleHtml) :=
  answers_declText sound hd (by decide) (fun _ => rfl) rfl (by simp [Decl.texts])

theorem answers_sourceHtml (sound : s.Sound) (hd : s.decl? i = some d) :
    Answers s (sourceHtml ⟨i⟩) (.ok d.sourceHtml) :=
  answers_declText sound hd (by decide) (fun _ => rfl) rfl (by simp [Decl.texts])

/-! ## Numbered parts of declarations -/

theorem lt_of_lt_length_kept {α : Type} {l : List α} {k : Nat}
    (hk : k < (Slice.kept l).length) : k < 2 ^ 32 ∧ k < l.length := by
  rw [Slice.kept, List.length_take] at hk
  omega

/-- What is made of numbered parts is made of what stands at the numbers. -/
theorem answers_numbered {α β : Type} {l : List String} {mk : UInt32 → α} {f : α → Index Table β}
    {g : String → β} (hf : ∀ (k : UInt32) (lt : k.toUInt64.toNat < l.length),
      Answers s (f (mk k)) (.ok (g l[k.toUInt64.toNat]))) :
    Answers s (((Slice.kept (positions l.length)).map mk).mapM f)
      (.ok ((Slice.kept l).map g)) := by
  refine answers_mapM (List.forall₂_iff_get.2 ⟨by simp [Slice.kept, positions], fun k hk hk' => ?_⟩)
  rw [List.length_map] at hk'
  obtain ⟨small, lt⟩ := lt_of_lt_length_kept hk'
  have back : (UInt32.ofNat k).toUInt64.toNat = k := toNat_ofNat_toUInt64 small
  have here := hf (UInt32.ofNat k) (by rwa [back])
  simp only [back] at here
  simpa [Slice.kept, positions] using here

theorem itemAt_eq (e : Export) {items : List String} {word : UInt64}
    (lt : word.toNat < items.length) : itemAt e items word = .ok items[word.toNat] := by
  rw [itemAt, List.getElem?_eq_getElem lt]

theorem answers_paramHtml (sound : s.Sound) (hd : s.decl? i = some d) {k : UInt32}
    (lt : k.toUInt64.toNat < d.params.length) :
    Answers s (paramHtml ⟨i⟩ ⟨k⟩) (.ok d.params[k.toUInt64.toNat]) := by
  apply answers_declText sound hd (by decide) (fun _ => rfl)
  · rw [itemAt_eq .param lt]
    rfl
  · simp [Decl.texts]

theorem answers_fieldHtml (sound : s.Sound) (hd : s.decl? i = some d) {k : UInt32}
    (lt : k.toUInt64.toNat < d.fields.length) :
    Answers s (fieldHtml ⟨i⟩ ⟨k⟩) (.ok d.fields[k.toUInt64.toNat]) := by
  apply answers_declText sound hd (by decide) (fun _ => rfl)
  · rw [itemAt_eq .field lt]
    rfl
  · simp [Decl.texts]

theorem answers_params (hd : s.decl? i = some d) :
    Answers s (params ⟨i⟩) (.ok ((Slice.kept (positions d.params.length)).map ParamRef.mk)) :=
  (answers_callWords (by decide) (reply_of_declAt (declAt_eq hd) (fun _ => rfl) rfl)).bind
    (answers_pure s _)

theorem answers_fields (hd : s.decl? i = some d) :
    Answers s (fields ⟨i⟩) (.ok ((Slice.kept (positions d.fields.length)).map FieldRef.mk)) :=
  (answers_callWords (by decide) (reply_of_declAt (declAt_eq hd) (fun _ => rfl) rfl)).bind
    (answers_pure s _)

/-! ## Members of declarations -/

theorem answers_namespaceMembers (hd : s.decl? i = some d) (includePrivate : Bool) :
    Answers s (namespaceMembers ⟨i⟩ includePrivate)
      (.ok ((Slice.kept (s.visibleMembers Category.isScope d includePrivate)).map Handle.mk)) := by
  apply answers_callHandles (by decide)
  cases includePrivate <;> exact reply_of_declAt (declAt_eq hd) (fun _ => rfl) rfl

theorem answers_typeFunctionMembers (hd : s.decl? i = some d) (includePrivate : Bool) :
    Answers s (typeFunctionMembers ⟨i⟩ includePrivate)
      (.ok ((Slice.kept (s.visibleMembers (· = .typeFunction) d includePrivate)).map Handle.mk)) := by
  apply answers_callHandles (by decide)
  cases includePrivate <;> exact reply_of_declAt (declAt_eq hd) (fun _ => rfl) rfl

/-! ## Errors of declarations -/

theorem answers_errorSet (hd : s.decl? i = some d) :
    Answers s (errorSet ⟨i⟩)
      (.ok (if d.errorSet.isSome then some ⟨i.toUInt64 + 1⟩ else none)) := by
  have asked : Answers s (call .errorSet [i.toUInt64])
      (.ok (if d.errorSet.isSome then i.toUInt64 + 1 else 0)) :=
    answers_call_word (by decide) (reply_of_declAt (declAt_eq hd) (fun _ => rfl) rfl)
  refine asked.bind ?_
  have bound : i.toNat < 2 ^ 32 := i.toNat_lt
  have present : i.toUInt64 + 1 ≠ 0 := by
    intro h
    have word := congrArg UInt64.toNat h
    rw [UInt64.toNat_add, UInt32.toNat_toUInt64] at word
    simp at word
    omega
  cases d.errorSet with
  | none => exact answers_pure s _
  | some set => simpa [present] using answers_pure s _

/-- The reference of an error set is one more than the position of its declaration. -/
theorem declAt_reference (hd : s.decl? i = some d) : s.declAt (i.toUInt64 + 1 - 1) = .ok d := by
  rw [UInt64.add_sub_cancel, declAt_eq hd]

theorem returns_errorSetOwner (sound : s.Sound) (hd : s.decl? i = some d) :
    Returns s (errorSetOwner ⟨i⟩ ⟨i.toUInt64 + 1⟩) := by
  have reply : ∀ input, s.reply input .errorSetOwner [i.toUInt64, i.toUInt64 + 1] =
      .ok (.word (((d.errorSet.bind (·.owner)).map (·.toUInt64)).getD (i.toUInt64 + 1 - 1))) :=
    reply_of_declAt (declAt_reference hd) (fun _ => rfl) rfl
  cases ho : d.errorSet.bind (·.owner) with
  | none =>
    rw [ho, Option.map_none, Option.getD_none, UInt64.add_sub_cancel] at reply
    exact ⟨_, answers_callHandle sound.size_lt (by decide) reply (declares_of_decl? hd)⟩
  | some o =>
    rw [ho, Option.map_some, Option.getD_some] at reply
    obtain ⟨set, hset, named⟩ := Option.bind_eq_some_iff.1 ho
    have declared : s.Declares o := sound.owner d (mem_of_decl? hd) set hset o named
    exact ⟨_, answers_callHandle sound.size_lt (by decide) reply declared⟩

/-- The reference of an error: the position of its declaration in the high half, its own in the
low one. -/
def errorRef (i : UInt32) (k : Nat) : UInt64 :=
  halves i.toUInt64 (.ofNat k)

theorem answers_errorSetEntries (hd : s.decl? i = some d) :
    Answers s (errorSetEntries ⟨i⟩ ⟨i.toUInt64 + 1⟩)
      (.ok (((Slice.kept (List.range d.errors.length)).map (errorRef i)).map ErrorRef.mk)) := by
  have reply : ∀ input, s.reply input .errorSetEntries [i.toUInt64, i.toUInt64 + 1] =
      .ok (.longWords ((List.range d.errors.length).map (errorRef i))) := by
    apply reply_of_declAt (declAt_reference hd) (fun _ => rfl)
    rw [UInt64.add_sub_cancel]
    rfl
  have asked := answers_callSlice (by decide) reply (readsBack_longWords _)
  have kept_map : Slice.kept ((List.range d.errors.length).map (errorRef i)) =
      (Slice.kept (List.range d.errors.length)).map (errorRef i) := by
    rw [Slice.kept, Slice.kept, List.length_map, List.map_take]
  rw [kept_map] at asked
  exact asked.bind (answers_pure s _)

theorem toNat_errorRef {k : Nat} (small : k < 2 ^ 32) :
    (errorRef i k).toNat = i.toNat * UInt32.size + k := by
  have size : UInt32.size = 2 ^ 32 := rfl
  rw [errorRef, toNat_halves small, UInt32.toNat_toUInt64, Nat.mod_eq_of_lt i.toNat_lt, size]

theorem errorRef_high {k : Nat} (small : k < 2 ^ 32) :
    UInt64.ofNat ((errorRef i k).toNat / UInt32.size) = i.toUInt64 := by
  have size : UInt32.size = 2 ^ 32 := rfl
  have high : (i.toNat * 2 ^ 32 + k) / 2 ^ 32 = i.toNat := by omega
  rw [toNat_errorRef small, size, high]
  exact UInt64.toNat_inj.1 (by simp)

theorem errorRef_low {k : Nat} (small : k < 2 ^ 32) :
    (errorRef i k).toNat % UInt32.size = k := by
  rw [toNat_errorRef small, Nat.mul_add_mod_self_right]
  exact Nat.mod_eq_of_lt small

theorem mem_texts_errorHtml {e : ErrorEntry} (he : e ∈ d.errors) :
    Snapshot.errorHtml e ∈ d.texts :=
  List.mem_append_right _ (List.mem_map_of_mem he)

theorem answers_errorHtml (sound : s.Sound) (hd : s.decl? i = some d) (owner : Handle)
    {k : Nat} (small : k < 2 ^ 32) (lt : k < d.errors.length) :
    Answers s (errorHtml owner ⟨errorRef i k⟩) (.ok (Snapshot.errorHtml d.errors[k])) := by
  have declared : s.declAt (.ofNat ((errorRef i k).toNat / UInt32.size)) = .ok d := by
    rw [errorRef_high small, declAt_eq hd]
  have short := sound.text d (mem_of_decl? hd) _ (mem_texts_errorHtml (List.getElem_mem lt))
  refine answers_callText (by decide) (reply_of_declAt declared (fun _ => rfl) ?_) short
  have entry : ((d.errorSet.map (·.errors)).getD [])[(errorRef i k).toNat % UInt32.size]? =
      some d.errors[k] := by
    rw [errorRef_low small]
    exact List.getElem?_eq_getElem lt
  dsimp only
  rw [entry]
  rfl

end Index

end DocIndex
